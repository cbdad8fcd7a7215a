/-
The network configuration that `cmd_run` builds from its arguments.

`getopt_long` hands the options over one by one; the ones kept here write the network
configuration, each copying its argument into a buffer of fixed size without looking
at it.  A `-p` argument is cut at its first colon and the rest at its first slash, and
a mapping beyond the hundred and twenty-eighth is dropped, as is one without a colon.
-/
import Cruntime.Lib.Runs
import Cruntime.Net.Network

namespace Cruntime

/-- The options of `cmd_run` that write the network configuration, and the rest. -/
inductive RunOption where
  | network (arg : CStr)
  | ip (arg : CStr)
  | publish (arg : CStr)
  | other

/-- `MAX_PORTS`. -/
def maxPorts : Nat := 128

/-- A port mapping as `-p` writes it: `host:container` or `host:container/proto`. -/
def parsePublish (arg : CStr) : Option PortMapping :=
  match strchr arg ':' with
  | none => none
  | some (hostPort, rest) =>
      match strchr rest '/' with
      | some (containerPort, protocol) =>
          some ⟨toUInt16 (atoi hostPort), toUInt16 (atoi containerPort), strncpy protocol 7⟩
      | none => some ⟨toUInt16 (atoi hostPort), toUInt16 (atoi rest), "tcp".toList⟩

def applyOption (net : NetworkConfig) : RunOption → NetworkConfig
  | .network arg => { net with bridgeName := strncpy arg 63 }
  | .ip arg => { net with ipAddress := strncpy arg 63 }
  | .publish arg =>
      match parsePublish arg with
      | some pm =>
          if net.ports.length < maxPorts then { net with ports := net.ports ++ [pm] } else net
      | none => net
  | .other => net

/-- The configuration before any option. -/
def defaultNetwork : NetworkConfig where
  bridgeName := "cr0".toList
  ipAddress := []
  gateway := []
  subnet := "172.17.0.0/16".toList
  ports := []

/-- The network configuration of `cmd_run`. -/
def runNetwork (opts : List RunOption) : NetworkConfig :=
  Runs.after applyOption defaultNetwork opts

example : (runNetwork [.network "br1".toList, .publish "8080:80/udp".toList]).ports
    = [⟨8080, 80, "udp".toList⟩] := by decide

/-- What the sizes of the buffers leave of the arguments. -/
structure FitsBuffers (net : NetworkConfig) : Prop where
  bridgeName : net.bridgeName.length ≤ 63
  ipAddress : net.ipAddress.length ≤ 63
  gateway : net.gateway = []
  subnet : net.subnet = "172.17.0.0/16".toList
  ports : ∀ pm ∈ net.ports, pm.hostPort < 65536 ∧ pm.containerPort < 65536 ∧ pm.protocol.length ≤ 7

theorem parsePublish_fits {arg : CStr} {pm : PortMapping} (h : parsePublish arg = some pm) :
    pm.hostPort < 65536 ∧ pm.containerPort < 65536 ∧ pm.protocol.length ≤ 7 := by
  unfold parsePublish at h
  split at h
  · simp at h
  · split at h
    · obtain rfl := Option.some.inj h
      exact ⟨toUInt16_lt _, toUInt16_lt _, strncpy_length_le _ 7⟩
    · obtain rfl := Option.some.inj h
      refine ⟨toUInt16_lt _, toUInt16_lt _, ?_⟩
      show "tcp".toList.length ≤ 7
      decide

theorem applyOption_fits {net : NetworkConfig} (h : FitsBuffers net) (opt : RunOption) :
    FitsBuffers (applyOption net opt) := by
  obtain ⟨hbridge, hip, hgateway, hsubnet, hports⟩ := h
  cases opt with
  | network arg => exact ⟨strncpy_length_le arg 63, hip, hgateway, hsubnet, hports⟩
  | ip arg => exact ⟨hbridge, strncpy_length_le arg 63, hgateway, hsubnet, hports⟩
  | other => exact ⟨hbridge, hip, hgateway, hsubnet, hports⟩
  | publish arg =>
      show FitsBuffers (match parsePublish arg with | some pm => _ | none => _)
      cases hpm : parsePublish arg with
      | none => exact ⟨hbridge, hip, hgateway, hsubnet, hports⟩
      | some pm =>
          by_cases hroom : net.ports.length < maxPorts
          · simp only [if_pos hroom]
            refine ⟨hbridge, hip, hgateway, hsubnet, fun p hp => ?_⟩
            rcases List.mem_append.mp hp with hp | hp
            · exact hports p hp
            · obtain rfl : p = pm := by simpa using hp
              exact parsePublish_fits hpm
          · simp only [if_neg hroom]
            exact ⟨hbridge, hip, hgateway, hsubnet, hports⟩

/-- **Every configuration `cmd_run` builds fits its buffers.** -/
theorem runNetwork_fits (opts : List RunOption) : FitsBuffers (runNetwork opts) :=
  Runs.keeps' applyOption (I := FitsBuffers) (fun _ opt h => applyOption_fits h opt) opts defaultNetwork
    ⟨by decide, by decide, rfl, rfl, by simp [defaultNetwork]⟩

end Cruntime
