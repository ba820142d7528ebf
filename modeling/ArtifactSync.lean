import ArtifactSync.FileSystem.Memory
import ArtifactSync.Main
import ArtifactSync.Proofs.IgnoreRules.Region
import ArtifactSync.Proofs.Watch.Echo
import ArtifactSync.Proofs.Watch.Excluded
import ArtifactSync.Proofs.Watch.Frame
import ArtifactSync.Proofs.Watch.Gone
import ArtifactSync.Proofs.Watch.Independent
import ArtifactSync.Proofs.Watch.LastGood
import ArtifactSync.Proofs.Watch.Preserve
import ArtifactSync.Proofs.Watch.Renamed
import ArtifactSync.Proofs.Watch.Staleness
import ArtifactSync.Proofs.Watch.ToldApart
import ArtifactSync.Proofs.Watch.Removal
import ArtifactSync.Proofs.Disk.Grown
import ArtifactSync.Proofs.Disk.Again
import ArtifactSync.Proofs.Build.Again
import ArtifactSync.Proofs.SideFile.OnDisk
import ArtifactSync.Proofs.Build.Repeat
import ArtifactSync.Proofs.SideFile.Sentinel
import ArtifactSync.Proofs.Watch.Replay
import ArtifactSync.Proofs.Watch.Twice
import ArtifactSync.Proofs.SideFile.FrontOfMarker
import ArtifactSync.Proofs.SideFile.TrailingEdge
import ArtifactSync.Proofs.Watch.Atomic
import ArtifactSync.Proofs.Watch.Unlinked
import ArtifactSync.Proofs.Discovery.Subtree
import ArtifactSync.Proofs.Disk.Careful
import ArtifactSync.Proofs.SideFile.AllOrNothing
import ArtifactSync.Proofs.Build.Account
import ArtifactSync.Proofs.Jsonc.Line
import ArtifactSync.Proofs.Watch.EventLine
import ArtifactSync.Proofs.Watch.Lifecycle
import ArtifactSync.Proofs.SideFile.Listing
import ArtifactSync.Proofs.Build.Header
import ArtifactSync.Proofs.Config.Warnings
import ArtifactSync.Proofs.Watch.Answered
import ArtifactSync.Proofs.Artifact.Laws
import ArtifactSync.Proofs.Path.Relative
