import KubeSwift.Artifact.Policy
import KubeSwift.Clone.Download
import KubeSwift.GPU.Discovery
import KubeSwift.GPU.Preflight
import KubeSwift.GuestPool.BackOff
import KubeSwift.GuestPool.Rollout
import KubeSwift.Launcher.Cpuset
import KubeSwift.Migration.Attribution
import KubeSwift.Migration.CommitSafety
import KubeSwift.Migration.Cutover
import KubeSwift.Migration.Finality
import KubeSwift.Migration.OfflineOutcome
import KubeSwift.Migration.SourceReplaced
import KubeSwift.S3.Purge
import KubeSwift.Sandbox.ArtifactCache
import KubeSwift.Sandbox.Finished
import KubeSwift.Sandbox.OwnSlot
import KubeSwift.Sandbox.PoolRelease
import KubeSwift.Sandbox.Redispatch
import KubeSwift.Snapshot.Retention
import KubeSwift.Snapshot.Ticks
import KubeSwift.Snapshot.Windows
import KubeSwift.ThinPool.Agreement
import KubeSwift.ThinPool.Eviction
import KubeSwift.ThinPool.GuestDisk
import KubeSwift.ThinPool.Identifiers
import KubeSwift.ThinPool.Leaks
import KubeSwift.ThinPool.SparseCopy
import KubeSwift.Transfer.Tags
