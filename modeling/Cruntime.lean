import Cruntime.Lib.Runs
import Cruntime.Lib.Script
import Cruntime.Lib.Pool
import Cruntime.Lib.CText
import Cruntime.Lib.Inet
import Cruntime.Lib.RuleChain
import Cruntime.Lib.Shell
import Cruntime.Lib.ShellFields
import Cruntime.Lib.OptionWords
import Cruntime.Utils
import Cruntime.GenerateId
import Cruntime.ParseSize
import Cruntime.Files
import Cruntime.Stats
import Cruntime.Net.Links
import Cruntime.Net.Command
import Cruntime.Net.Network
import Cruntime.Net.Frame
import Cruntime.Net.Bridge
import Cruntime.Net.Cycles
import Cruntime.Net.Setup
import Cruntime.Net.Fleet
import Cruntime.Net.Cleanup
import Cruntime.Net.Addresses
import Cruntime.Net.Addressing
import Cruntime.Net.Interleaved
import Cruntime.Net.Ports
import Cruntime.Net.Published
import Cruntime.Cli
import Cruntime.Net.CommandText
import Cruntime.CmdRun
import Cruntime.Main
import Cruntime.RunOptions
import Cruntime.RunLimits
import Cruntime.Publish
import Cruntime.RunCommands
import Cruntime.Cgroup.Limits
import Cruntime.Cgroup.Budget
import Cruntime.Storage.Commit
import Cruntime.Storage.Mount
import Cruntime.Storage.Remove
import Cruntime.Storage.Layers
import Cruntime.Storage.Archive
import Cruntime.Storage.Diff
import Cruntime.Net.Local
import Cruntime.Net.Attach
import Cruntime.Net.Concurrent
import Cruntime.Lib.TreeCopy
import Cruntime.Lib.MountTable
import Cruntime.Lib.Paths
import Cruntime.Namespace.Mounts
import Cruntime.Namespace.Volumes
import Cruntime.Namespace.ReadOnly
import Cruntime.Namespace.Confined
import Cruntime.Cgroup.Weight
import Cruntime.FormatSize
import Cruntime.Lib.Bytes
import Cruntime.SplitString
import Cruntime.Lib.FileTree
import Cruntime.Storage.Mkdir
import Cruntime.Cgroup.Destroy
import Cruntime.Lib.PivotRoot
import Cruntime.Lib.WriteOnce
import Cruntime.Namespace.Isolated
import Cruntime.Namespace.Persist
import Cruntime.Namespace.Persisted
import Cruntime.Namespace.ReadOnlyStart
import Cruntime.Namespace.UserMap
import Cruntime.Lib.Protocol
import Cruntime.Lifecycle
import Cruntime.Storage.Snapshots
import Cruntime.Net.Connected
import Cruntime.Net.Emptied
import Cruntime.Lib.Alone
import Cruntime.Lib.TreeGrowth
import Cruntime.Storage.Directories
