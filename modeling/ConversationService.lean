import ConversationService.Properties.TwoTables
import ConversationService.Properties.TerminalStatus
import ConversationService.Properties.UserRows
import ConversationService.Properties.ReplyOrder
import ConversationService.Properties.AllOrNothing
import ConversationService.Properties.DeletedRows
import ConversationService.Properties.Watchdog
import ConversationService.Properties.Regeneration
import ConversationService.Properties.SameRequest
import ConversationService.Properties.Lineage
import ConversationService.Properties.CacheCoherence
import ConversationService.Library.LogConsumer
import ConversationService.Model.ConsumerLoop
import ConversationService.Properties.AtLeastOnce
import ConversationService.Model.IdempotencyService
import ConversationService.Model.MessagesApi
import ConversationService.Effects.IdempotentPosts
import ConversationService.Properties.OneSend
import ConversationService.Properties.ReplayScope
import ConversationService.Effects.BranchScope
import ConversationService.Properties.BranchGrowth
import ConversationService.Effects.Operations
import ConversationService.Properties.FrozenBranches
import ConversationService.Effects.Purging
import ConversationService.Properties.Purges
import ConversationService.Effects.SanitizedCitations
import ConversationService.Properties.SameCitations
import ConversationService.Library.KeysetScan
import ConversationService.Effects.CachedHistory
import ConversationService.Model.ConversationsApi
import ConversationService.Properties.MessagePages
import ConversationService.Properties.ConversationPages
import ConversationService.Model.Outbox
import ConversationService.Model.OutboxWorkers
import ConversationService.Model.OutboxSystem
import ConversationService.Effects.OutboxPasses
import ConversationService.Properties.OutboxStorage
import ConversationService.Properties.OutboxOrder
import ConversationService.Properties.BucketLeases
import ConversationService.Model.MessageCalls
import ConversationService.Effects.CachedLists
import ConversationService.Properties.CacheTransparency
import ConversationService.Properties.CurrentLists
import ConversationService.Model.NotesRepository
import ConversationService.Properties.NotesVersions
import ConversationService.Model.SourceEditRepository
import ConversationService.Properties.SourceEdits
import ConversationService.Model.HierarchyService
import ConversationService.Python.Sha256
import ConversationService.Model.ExportJobs
import ConversationService.Model.ExportService
import ConversationService.Effects.ExportStatements
import ConversationService.Properties.ExportLifeCycle
import ConversationService.Properties.ReadyExports
import ConversationService.Python.Uuid5
import ConversationService.Model.ArtifactStorage
import ConversationService.Model.ArtifactService
import ConversationService.Effects.ArtifactStatements
import ConversationService.Properties.ManualRetries
import ConversationService.Effects.RenderAttempts
import ConversationService.Properties.RenderLifecycle
import ConversationService.Properties.RenderLeases
import ConversationService.Properties.VerifiedVideos
import ConversationService.Properties.ExportedMessages
import ConversationService.Library.ParentLinks
import ConversationService.Properties.Families
import ConversationService.Properties.SummaryDeliveries
import ConversationService.Properties.LegacyBoundary
import ConversationService.Model.PreferencesRepository
import ConversationService.Properties.PreferenceUpdates
import ConversationService.Properties.CreationOrder
import ConversationService.Library.TwoRuns
import ConversationService.Model.FencedBlocks
import ConversationService.Model.ExportBundles
import ConversationService.Properties.OwnerData
import ConversationService.Library.FittingPrefixes
import ConversationService.Properties.InheritedHistory
import ConversationService.Library.ReadCommitted
import ConversationService.Model.SourceEditTransactions
import ConversationService.Properties.OwnerCaps
import ConversationService.Model.CustomModes
import ConversationService.Properties.ModeInvariants
import ConversationService.Model.EventHistory
import ConversationService.Properties.EventHistory
import ConversationService.Model.BoxWalk
import ConversationService.Properties.BoxGrammar
import ConversationService.Model.Preferences
import ConversationService.Properties.PreferenceDocuments
import ConversationService.Properties.Resolution
import ConversationService.Properties.PatchMerge
import ConversationService.Library.KeyedWrites
import ConversationService.Model.PreferencesMigration
import ConversationService.Properties.PreferencesMigration
import ConversationService.Properties.CitationWhitelist
import ConversationService.Library.Backtracking
import ConversationService.Library.SpanScan
import ConversationService.Model.FenceExpression
import ConversationService.Properties.FenceLines
import ConversationService.Properties.FenceScan
import ConversationService.Properties.FenceGrammar
import ConversationService.Model.RenderMarkdown
import ConversationService.Properties.RenderedMessages
import ConversationService.Model.Naming
import ConversationService.Model.ExportArchive
import ConversationService.Library.Placements
import ConversationService.Properties.ArchivePlaces
import ConversationService.Properties.ArchiveNames
import ConversationService.Properties.ArchiveTrees
import ConversationService.Properties.ArchivePaths
import ConversationService.Properties.ArchiveMembers
import ConversationService.Library.SeparatedMaps
import ConversationService.Model.JsonInput
import ConversationService.Properties.ArtifactIds
import ConversationService.Properties.CanonicalDiagrams
import ConversationService.Properties.CanonicalSpecs
import ConversationService.Properties.CanonicalTexts
import ConversationService.Library.Escapes
import ConversationService.Library.Trimming
import ConversationService.Model.ExportFiles
import ConversationService.Model.Pagination
import ConversationService.Properties.CursorTexts
import ConversationService.Properties.Cursors
import ConversationService.Properties.DirectoryNames
import ConversationService.Properties.FloorIds
import ConversationService.Properties.MarkedTitles
import ConversationService.Properties.NormalForms
import ConversationService.Properties.TitleMarkup
import ConversationService.Library.LiveLog
import ConversationService.Library.EventStream
import ConversationService.Model.StreamService
import ConversationService.Properties.StreamOrder
import ConversationService.Properties.StreamPublishers
import ConversationService.Properties.StreamDelivery
import ConversationService.Properties.CompleteStreams
import ConversationService.Properties.WireJson
import ConversationService.Properties.StreamFrames
import ConversationService.Library.Words
import ConversationService.Model.CustomModeRequests
import ConversationService.Properties.ModeVersions
import ConversationService.Properties.ModeBodies
