import ConvertOnce.Build
import ConvertOnce.Proofs.Path.NormalForm
import ConvertOnce.Proofs.OnDemand.Outcome
import ConvertOnce.Proofs.OnDemand.History
import ConvertOnce.Proofs.BuildInputs.Marker
import ConvertOnce.Proofs.BuildInputs.Read
import ConvertOnce.Proofs.BuildInputs.Stream
import ConvertOnce.Proofs.Guard.Outcome
import ConvertOnce.Proofs.Guard.Staleness
import ConvertOnce.Proofs.FileSystem.Refusals
import ConvertOnce.Proofs.Guard.Failures
import ConvertOnce.Proofs.FileTree.Walks
import ConvertOnce.Proofs.FileTree.Growth
import ConvertOnce.Proofs.FileSystem.Leads
import ConvertOnce.Proofs.Guard.Interleaving
import ConvertOnce.Proofs.FileSystem.SeenFrom
import ConvertOnce.Proofs.Guard.Traces
import ConvertOnce.Proofs.FileSystem.RealPath
import ConvertOnce.Proofs.Settings.Malformed
import ConvertOnce.Proofs.OnDemand.Packages
import ConvertOnce.Proofs.Guard.SeenFrom
import ConvertOnce.Proofs.Settings.SeenFrom
import ConvertOnce.Proofs.OnDemand.SeenFrom
import ConvertOnce.Proofs.Build.SeenFrom
import ConvertOnce.Proofs.Json.Zero
import ConvertOnce.Proofs.Settings.Format
import ConvertOnce.Proofs.Settings.Merge
import ConvertOnce.Proofs.OnDemand.Conversion
import ConvertOnce.Proofs.World.Profiled
import ConvertOnce.Proofs.Guard.Profiled
import ConvertOnce.Proofs.OnDemand.Profiled
import ConvertOnce.Proofs.Build.Profiled
import ConvertOnce.Proofs.OnDemand.Logged
import ConvertOnce.Proofs.Build.Logged
import ConvertOnce.Proofs.ByteCache
import ConvertOnce.Proofs.Guard.Table
import ConvertOnce.Proofs.Path.Directory
import ConvertOnce.Proofs.FileSystem.Holder
import ConvertOnce.Proofs.Guard.Probe
import ConvertOnce.Proofs.OnDemand.Failures
import ConvertOnce.Proofs.OnDemand.Requests
import ConvertOnce.Proofs.OnDemand.Freshness
import ConvertOnce.Proofs.Guard.Races
import ConvertOnce.Proofs.BuildInputs.Definition
import ConvertOnce.Proofs.BuildInputs.SingleChange
import ConvertOnce.Proofs.Path.Canonical
import ConvertOnce.Proofs.FileSystem.Canonical
import ConvertOnce.Proofs.OnDemand.SameFile
import ConvertOnce.Proofs.Path.Ancestors
import ConvertOnce.Proofs.Manifest.Nearest
import ConvertOnce.Proofs.Manifest.OwnTree
import ConvertOnce.Proofs.Manifest.Root
import ConvertOnce.Proofs.Manifest.Beside
import ConvertOnce.Proofs.ByteCache.Snapshot
import ConvertOnce.Proofs.Guard.Child
import ConvertOnce.Proofs.Path.Outward
import ConvertOnce.Proofs.BuildInputs.Spelling
import ConvertOnce.Proofs.FileSystem.Outline
import ConvertOnce.Proofs.Settings.Order
