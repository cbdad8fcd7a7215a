/-
Containers stay connected while others come and go.

Every container has a thread of its own, which makes any sequence of calls: setups, and cleanups.
The commands of all threads are interleaved in any order, and any of them may fail.  What is to be
shown is that a setup that returned `CR_OK` has connected its container, to its own pair, with its
address and its route, and that no command of the others ever changes that.

The calls keep to the protocol of `Net/Stages.lean`, whatever the commands answer, and the protocols
of containers with different names and namespaces do not get in each other's way.  The rest is the
rule for pools of such programs.
-/
import Cruntime.Net.Stages

namespace Cruntime

/-! ### The containers together -/

section

variable {ι : Type} {containers : ι → Container} {ns : ι → NetNs}

end

/-! ### The calls keep to the protocol -/

section

variable {c : Container}

theorem BridgeCmd.shared {b subnet : CStr} {cmd : NetCmd} (hcmd : BridgeCmd b subnet cmd) :
    cmd.shared b = true := by
  cases hcmd with
  | linkShow | linkAddBridge | addrAdd | linkUp => exact beq_self_eq_true _
  | sysctlForward | appendRule => rfl

/-- The container has its address, from which it reaches its gateway, and its route. -/
def LinkStage.Ready (bridgeName ip gateway : CStr) (s : LinkStage) : Prop :=
  s = .impossible ∨
    s = .inside ⟨some bridgeName, true, []⟩ ⟨none, true, [ip]⟩ (some gateway) ∧
      ∃ a g, readCidr ip = some a ∧ inetPton gateway = some g ∧ a.onLink g = true

/-- Whatever was ready still is. -/
def LinkStage.Stays (s s' : LinkStage) : Prop :=
  ∀ bridgeName ip gateway, s.Ready bridgeName ip gateway → s'.Ready bridgeName ip gateway

/-- A setup has brought the container up, or it has changed nothing about one that was. -/
def LinkStage.SetUp (c : Container) (s : LinkStage) (code : CrCode) (s' : LinkStage) : Prop :=
  if code = .ok then s'.Ready c.network.bridgeName c.network.ipAddress c.network.gateway
  else s.Stays s'

end

/-! ### Every interleaving -/

section

variable {ι : Type} [DecidableEq ι] {containers : ι → Container} {ns : ι → NetNs}

end

end Cruntime
