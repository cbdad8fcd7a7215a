/-
The functions of `network.c`.

Each is a program over `NetCmd` that returns the function's result code.  A check
`if (exec_cmd(cmd) != CR_OK) return CR_ERROR;` is `unless ← issue c do return ..`,
and a call whose status the source drops is a bare `issue c`.  Where the source
leaves a variable uninitialised (the address after a failed `inet_pton`) the model
takes its value as an argument, and so it does for what `rand()` returns.

`network_setup_container` writes the address and the gateway it chose back into
the container's configuration, also when it fails later, so it returns the
container it leaves.
-/
import Cruntime.Net.Command

namespace Cruntime

/-- The result codes of `cruntime.h` that the modelled functions return. -/
inductive CrCode where
  | ok
  | error
  | einval
  | esyscall
deriving DecidableEq

open Script (issue)

/-- `network_create_bridge`; `stack` is the uninitialised `addr`. -/
def networkCreateBridge (bridgeName subnet : CStr) (stack : Addr) : NetScript CrCode := do
  -- Check if bridge already exists
  if ← issue (.linkShow bridgeName) then
    return .ok
  unless ← issue (.linkAddBridge bridgeName) do
    return .error
  -- Parse subnet to get network address and mask
  match strchr (strncpy subnet 64) '/' with
  | none => return .einval
  | some (network, pfx) =>
    -- Calculate gateway (first IP in subnet)
    let gateway := inetNtop ((inetPton network).getD stack + 1)
    unless ← issue (.addrAdd gateway pfx bridgeName) do
      return .error
    unless ← issue (.linkUp bridgeName) do
      return .error
    let _ ← issue .sysctlForward
    let _ ← issue (.appendRule (.masquerade subnet bridgeName))
    let _ ← issue (.appendRule (.acceptBridge bridgeName))
    let _ ← issue (.appendRule (.acceptReplies bridgeName))
    return .ok

/-- `network_delete_bridge`. -/
def networkDeleteBridge (bridgeName : CStr) : NetScript CrCode := do
  let _ ← issue (.linkDown bridgeName)
  unless ← issue (.linkDeleteBridge bridgeName) do
    return .error
  return .ok

/-- `snprintf(veth_host, .., "veth%.*s", 8, container_id)`. -/
def vethHost (containerId : CStr) : CStr := "veth".toList ++ containerId.take 8

/-- `network_setup_veth`. -/
def networkSetupVeth (containerId bridgeName ipAddress gateway : CStr) (containerPid : Int) :
    NetScript CrCode := do
  -- Create veth pair
  unless ← issue (.linkAddVeth (vethHost containerId) vethContainer) do
    return .error
  -- Attach host end to bridge
  unless ← issue (.linkSetMaster (vethHost containerId) bridgeName) do
    return .error
  -- Bring host end up
  unless ← issue (.linkUp (vethHost containerId)) do
    return .error
  -- Move container end to container's network namespace
  unless ← issue (.linkSetNetns vethContainer containerPid) do
    return .error
  -- Configure container's network (executed in container namespace)
  unless ← issue (.nsAddrAdd containerPid ipAddress vethContainer) do
    return .error
  -- Bring container interface up
  unless ← issue (.nsLinkUp containerPid vethContainer) do
    return .error
  -- Set default route in container
  unless ← issue (.nsRouteAdd containerPid gateway) do
    return .error
  -- Setup loopback in container
  let _ ← issue (.nsLinkUp containerPid "lo".toList)
  return .ok

/-- `port_mapping_t`. -/
structure PortMapping where
  hostPort : Nat
  containerPort : Nat
  protocol : CStr
deriving DecidableEq

/-- The DNAT rule of a mapping. -/
def PortMapping.dnatRule (pm : PortMapping) (containerIp : CStr) : Rule :=
  .dnat pm.protocol pm.hostPort containerIp pm.containerPort

/-- The forward rule of a mapping. -/
def PortMapping.acceptRule (pm : PortMapping) (containerIp : CStr) : Rule :=
  .acceptPort pm.protocol containerIp pm.containerPort

/-- `network_setup_port_forwarding`: a mapping whose DNAT rule is refused is skipped. -/
def networkSetupPortForwarding (containerIp : CStr) : List PortMapping → NetScript CrCode
  | [] => return .ok
  | pm :: rest => do
      if ← issue (.appendRule (pm.dnatRule containerIp)) then
        let _ ← issue (.appendRule (pm.acceptRule containerIp))
        networkSetupPortForwarding containerIp rest
      else
        networkSetupPortForwarding containerIp rest

/-- `network_remove_port_forwarding`. -/
def networkRemovePortForwarding (containerIp : CStr) : List PortMapping → NetScript CrCode
  | [] => return .ok
  | pm :: rest => do
      let _ ← issue (.deleteRule (pm.dnatRule containerIp))
      let _ ← issue (.deleteRule (pm.acceptRule containerIp))
      networkRemovePortForwarding containerIp rest

/-- `network_allocate_ip` into a buffer of `ipLen` bytes: `none` is `CR_EINVAL`. -/
def networkAllocateIp (subnet : CStr) (ipLen : Nat) (stack : Addr) (rand : Nat) : Option CStr :=
  match strchr (strncpy subnet 64) '/' with
  | none => none
  | some (network, pfx) =>
      -- Generate random offset (2-254)
      let offset := rand % 253 + 2
      let address := inetNtop ((inetPton network).getD stack + BitVec.ofNat 32 offset)
      -- Append CIDR
      let withSlash := address ++ "/".toList.take (ipLen - address.length - 1)
      some (withSlash ++ pfx.take (ipLen - withSlash.length - 1))

/-- The part of `network_config_t` that the network functions read and write. -/
structure NetworkConfig where
  bridgeName : CStr
  ipAddress : CStr
  gateway : CStr
  subnet : CStr
  ports : List PortMapping
deriving DecidableEq

/-- The part of `container_t` that the network functions read and write. -/
structure Container where
  id : CStr
  network : NetworkConfig
  initPid : Int
deriving DecidableEq

/-- What a call of `network_setup_container` finds outside the program's data: the
value of `rand()` and the uninitialised addresses of the three computations. -/
structure Entropy where
  rand : Nat
  bridgeStack : Addr
  allocStack : Addr
  gatewayStack : Addr

/-- The text before the prefix length, `*slash = '\0'` on a copy of the address. -/
def containerIpOf (ipAddress : CStr) : CStr :=
  match strchr (strncpy ipAddress 64) '/' with
  | some (ip, _) => ip
  | none => strncpy ipAddress 64

/-- The gateway `network_setup_container` uses when none is configured. -/
def gatewayOr (net : NetworkConfig) (stack : Addr) : CStr :=
  if net.gateway = [] then
    match strchr (strncpy net.subnet 64) '/' with
    | some (network, _) => inetNtop ((inetPton network).getD stack + 1)
    | none => []
  else net.gateway

/-- `network_setup_container` after the bridge and the address are there. -/
def networkAttach (c : Container) : NetScript CrCode := do
  let net := c.network
  let code ← networkSetupVeth c.id net.bridgeName net.ipAddress net.gateway c.initPid
  if code ≠ .ok then
    return .error
  if net.ports ≠ [] then
    let _ ← networkSetupPortForwarding (containerIpOf net.ipAddress) net.ports
  return .ok

/-- The container with an address, allocated when none is configured, and a gateway;
`none` when the allocation fails. -/
def withAddress (env : Entropy) (c : Container) : Option Container :=
  let net := c.network
  let ip := if net.ipAddress = [] then networkAllocateIp net.subnet 64 env.allocStack env.rand
    else some net.ipAddress
  ip.map fun ip =>
    { c with network := { net with ipAddress := ip, gateway := gatewayOr net env.gatewayStack } }

/-- `network_setup_container`: its result, and the container as it leaves it. -/
def networkSetupContainer (env : Entropy) (c : Container) : NetScript (CrCode × Container) := do
  let net := c.network
  let code ← networkCreateBridge net.bridgeName net.subnet env.bridgeStack
  if code ≠ .ok then
    return (.error, c)
  match withAddress env c with
  | none => return (.error, c)
  | some c' =>
    let code ← networkAttach c'
    return (code, c')

/-- `network_cleanup_container`. -/
def networkCleanupContainer (c : Container) : NetScript CrCode := do
  let net := c.network
  if net.ports ≠ [] then
    let _ ← networkRemovePortForwarding (containerIpOf net.ipAddress) net.ports
  let _ ← issue (.linkDelete (vethHost c.id))
  return .ok

end Cruntime
