import SessionSync.Core.StagedSelection
import SessionSync.Lib.Chain
import SessionSync.Lib.Checked
import SessionSync.Lib.Closure
import SessionSync.Server.Schema
import SessionSync.Server.Reachability
import SessionSync.Server.History
import SessionSync.Server.Purge
import SessionSync.Server.Calls
import SessionSync.Server.HistoryInv
import SessionSync.Server.HistoryTrash
import SessionSync.Server.HistoryRestore
import SessionSync.Server.HistoryPurge
import SessionSync.Server.HistoryEpochs
import SessionSync.Server.HistoryLaws
import SessionSync.Lib.Gate
import SessionSync.Storage.Objects
import SessionSync.Server.ObjectStore
import SessionSync.Server.Api
import SessionSync.Server.Graph
import SessionSync.Server.Intact
import SessionSync.Server.Protected
import SessionSync.Server.Serve
import SessionSync.Server.ServeShared
import SessionSync.Server.ServeCommit
import SessionSync.Server.ServeExclusive
import SessionSync.Server.ServeCollect
import SessionSync.Server.GcSafety
import SessionSync.Server.Traversal
import SessionSync.Server.CommitSound
import SessionSync.Server.Complete
import SessionSync.Server.CommitComplete
import SessionSync.Core.Sha256
import SessionSync.Core.JsonLength
import SessionSync.Server.FirstCommit
import SessionSync.Lib.Schedule
import SessionSync.Tracking.ExactlyOnce
import SessionSync.Core.Canonical
import SessionSync.Lib.Lines
import SessionSync.Rollout.Emission
import SessionSync.Rollout.Normalize
import SessionSync.Rollout.Materialize
import SessionSync.Rollout.Restamp
import SessionSync.Rollout.RoundTrip
import SessionSync.Rollout.CanonicalReader
import SessionSync.Rollout.Neutral
import SessionSync.Storage.Descriptor
import SessionSync.Storage.MachineNeutral
import SessionSync.Storage.Repository
import SessionSync.Storage.Snapshots
import SessionSync.Storage.Projection
import SessionSync.Storage.StoredView
import SessionSync.Storage.ReadBack
import SessionSync.Storage.SnapshotRoundTrip
import SessionSync.Storage.CanonicalDecoders
import SessionSync.Checkout.Apply
import SessionSync.Checkout.Operation
import SessionSync.Checkout.Rollback
import SessionSync.Checkout.Undoing
import SessionSync.Checkout.Recovering
import SessionSync.Checkout.Applying
import SessionSync.Checkout.CrashAtomic
import SessionSync.Lib.Actions
import SessionSync.Server.Uploads
import SessionSync.Server.UploadSafety
import SessionSync.Server.Recording
import SessionSync.Server.UploadGrace
import SessionSync.Config.Store
import SessionSync.Config.StoreLaws
import SessionSync.Config.Remotes
import SessionSync.Config.Namespaces
import SessionSync.Config.Workspaces
import SessionSync.Config.NoLostRule
import SessionSync.Storage.LocalRepository
import SessionSync.Sync.Compose
import SessionSync.Sync.Push
import SessionSync.Sync.NoDroppedThread
import SessionSync.Import.Operation
import SessionSync.Import.Rollouts
import SessionSync.Import.Undisturbed
import SessionSync.Import.RollbackExact
import SessionSync.Import.Phases
import SessionSync.Import.Recovery
import SessionSync.Import.ImportExact
import SessionSync.Server.RowKept
import SessionSync.Server.Leaks
import SessionSync.Server.Named
import SessionSync.Server.Resume
import SessionSync.Server.ResumeSettles
import SessionSync.Workspace.Cleanup
import SessionSync.Workspace.DirectoryMoves
import SessionSync.Workspace.CleanupKept
import SessionSync.Workspace.CleanupRuns
import SessionSync.Workspace.CleanupApplied
import SessionSync.Workspace.CleanupRecovery
import SessionSync.Core.Resolution
import SessionSync.Sync.StagedRefinement
import SessionSync.Local.AtomicFile
import SessionSync.Lib.Chunks
import SessionSync.Storage.Chunking
import SessionSync.Storage.Ingest
import SessionSync.Storage.IngestRollout
import SessionSync.Rollout.Scan
import SessionSync.Rollout.ProviderRewrite
import SessionSync.Rollout.Agreement
import SessionSync.Workspace.PathMapper
import SessionSync.Workspace.PathRoundTrip
import SessionSync.Workspace.SnapshotPaths
import SessionSync.Rollout.JsonCancel
import SessionSync.Workspace.CwdRewrite
import SessionSync.Workspace.CwdScan
import SessionSync.Workspace.CwdLayout
import SessionSync.Workspace.CwdExact
import SessionSync.Workspace.CwdRewritten
import SessionSync.Workspace.CwdLines
import SessionSync.Lib.Tables
import SessionSync.Server.Migration
import SessionSync.Server.MigrationResume
import SessionSync.Treasure.Candidates
import SessionSync.Treasure.Choice
import SessionSync.Checkout.Projects
import SessionSync.Checkout.ProjectRoots
import SessionSync.Checkout.ProjectAssignment
import SessionSync.Checkout.AssignedThreads
import SessionSync.Storage.Quarantine
import SessionSync.Storage.QuarantineExact
import SessionSync.Storage.Deletion
import SessionSync.Storage.DeletionExact
import SessionSync.Local.ThreadMutation
import SessionSync.Local.ThreadAtomicity
import SessionSync.Rollout.ProviderStream
import SessionSync.Provider.Databases
import SessionSync.Provider.Sync
import SessionSync.Provider.Selection
import SessionSync.Provider.Applied
import SessionSync.Provider.Postcondition
import SessionSync.Storage.NeutralView
import SessionSync.Core.CanonicalWriters
import SessionSync.Core.JsonEquality
import SessionSync.Rollout.CanonicalText
import SessionSync.Config.Readable
import SessionSync.Config.NamespaceSelection
import SessionSync.Jobs.RepositoryLeases
import SessionSync.Checkout.StageRollouts
import SessionSync.Checkout.StagedExact
import SessionSync.Checkout.StagingContainment
import SessionSync.Workspace.FieldSteps
import SessionSync.Workspace.ProjectRemoval
import SessionSync.Workspace.ProjectReferences
import SessionSync.Workspace.EmptyProjects
import SessionSync.Lib.Roots
import SessionSync.Workspace.PullPlan
import SessionSync.Workspace.StablePaths
import SessionSync.Workspace.AutomaticMappings
import SessionSync.Workspace.PullComplete
import SessionSync.Storage.Mark
import SessionSync.Storage.Sweep
import SessionSync.Storage.VerifiedRoots
import SessionSync.Storage.TrashPurge
import SessionSync.Storage.PurgeSafe
import SessionSync.Storage.PurgeSteps
import SessionSync.Storage.PurgePhases
import SessionSync.Storage.PurgeFinish
import SessionSync.Storage.PurgeRecovery
import SessionSync.Storage.PurgeProtocol
import SessionSync.Storage.GcDuringPurge
