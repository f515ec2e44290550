import Fulgur.Library.Run
import Fulgur.Library.Listing
import Fulgur.Library.Fallible
import Fulgur.Tabs.Content
import Fulgur.State.Persistence
import Fulgur.State.Db.Schema
import Fulgur.State.Db.Write
import Fulgur.State.Db.Read
import Fulgur.State.Db.Consistency
import Fulgur.State.Db.Target
import Fulgur.State.Db.Reconcile
import Fulgur.State.Db.Refinement
import Fulgur.State.Db.RoundTrip
import Fulgur.State.Writer
import Fulgur.State.WriterSteps
import Fulgur.State.WriterOrder
import Fulgur.State.WriterSupersede
import Fulgur.Files.Encoding
import Fulgur.Files.Disk
import Fulgur.Tabs.EditorTab
import Fulgur.State.Save
import Fulgur.State.Restore
import Fulgur.State.Restart
import Fulgur.Files.LocalSave
import Fulgur.Files.QuitSafety
import Fulgur.Window.Close
import Fulgur.Window.CloseSafety
import Fulgur.Sync.ShareDelivery
import Fulgur.Sync.DeliverOnce
import Fulgur.Files.FileWatch
import Fulgur.Files.CleanTabs
import Fulgur.Search.Replace
import Fulgur.Tabs.EditSurfaces
import Fulgur.Tabs.EditsFlagged
import Fulgur.Files.ReloadOrder
import Fulgur.Library.Tickets
import Fulgur.Remote.Task
import Fulgur.Remote.Window
import Fulgur.Remote.Loads
import Fulgur.Remote.EditsKept
import Fulgur.Remote.Tokens
import Fulgur.Remote.UploadOrder
import Fulgur.State.Db.Ownership
import Fulgur.Tabs.Transfer
import Fulgur.Files.LossySaves
import Fulgur.Tabs.Manager
import Fulgur.Tabs.ActiveTab
import Fulgur.Library.Keyed
import Fulgur.Window.TabTransfer
import Fulgur.Settings.Types
import Fulgur.Settings.Persistence
import Fulgur.Settings.InterruptedSaves
import Fulgur.State.Db.Legacy
import Fulgur.State.Launches
import Fulgur.State.LegacyKept
import Fulgur.Files.SaveWrites
import Fulgur.Files.SaveOrder
import Fulgur.Library.Custody
import Fulgur.Sync.DecryptionQueue
import Fulgur.Sync.QueueConservation
import Fulgur.Library.Base64
import Fulgur.Sync.ShareLimits
import Fulgur.Sync.SharesReceived
import Fulgur.Sync.ProfileKeys
import Fulgur.Sync.AnnouncedKeys
import Fulgur.Sync.SseFraming
import Fulgur.Sync.SseBlocks
import Fulgur.Sync.SseWorkers
import Fulgur.Sync.SseStatus
import Fulgur.Sync.SseSettled
import Fulgur.Sync.AccessToken
import Fulgur.Remote.SessionPool
import Fulgur.Files.RenameHalves
import Fulgur.Files.ExternalChanges
import Fulgur.Files.ExternalShown
import Fulgur.Library.Pieces
import Fulgur.LogView.Tail
import Fulgur.LogView.Polling
import Fulgur.LogView.Mirror
import Fulgur.Files.EncodingRoundTrip
import Fulgur.Tabs.LoadState
import Fulgur.Tabs.PreviewLinks
import Fulgur.Tabs.PreviewRuns
import Fulgur.Tabs.BulkClose
import Fulgur.Tabs.StripMoves
import Fulgur.Tabs.TabIdentity
import Fulgur.Tabs.ActiveRestart
import Fulgur.Tabs.FailedSaves
import Fulgur.Tabs.OpenFiles
import Fulgur.Library.Fields
import Fulgur.Settings.SettingsFields
import Fulgur.Settings.Propagation
import Fulgur.Library.Grid
import Fulgur.Files.CsvSupport
import Fulgur.Tabs.CsvTable
import Fulgur.Library.Csv
import Fulgur.Tabs.CsvRoundTrip
import Fulgur.Tabs.CsvBuffer
import Fulgur.Remote.PathBrowser
import Fulgur.Window.Registry
import Fulgur.Window.RegistrySafety
import Fulgur.Library.Wildcard
import Fulgur.Remote.KnownHosts
import Fulgur.Remote.HostKeys
import Fulgur.Remote.TrustedHosts
import Fulgur.Files.LossyDecoding
import Fulgur.LogView.TailDecoding
import Fulgur.Library.Delimiters
import Fulgur.Remote.RemoteUrl
import Fulgur.Remote.UrlRoundTrip
import Fulgur.Library.Expansion
import Fulgur.Search.ByteOffsets
import Fulgur.Search.Matching
import Fulgur.Search.Places
import Fulgur.Search.LineCol
import Fulgur.Search.SearchExact
import Fulgur.Search.LowerCase
import Fulgur.Search.CaseFolding
import Fulgur.Library.Intervals
import Fulgur.Search.ReplaceAll
import Fulgur.Library.Volume
import Fulgur.Files.AtomicWrite
import Fulgur.Files.AtomicReplace
import Fulgur.Library.Recency
import Fulgur.Settings.RecentFiles
import Fulgur.Remote.WildcardPatterns
import Fulgur.LogView.Trimming
import Fulgur.Tabs.Reordering
import Fulgur.Window.WindowNames
import Fulgur.State.WindowIds
import Fulgur.Files.FileNames
import Fulgur.Remote.ClosestDirectory
import Fulgur.Library.QuotedValues
import Fulgur.Preview.HtmlTokens
import Fulgur.Preview.ImageSources
import Fulgur.Library.Ranges
import Fulgur.Preview.InlineBreaks
import Fulgur.Library.WorkQueue
import Fulgur.Sync.FetchWorkers
import Fulgur.Sync.ShareSheet
import Fulgur.Sync.SharesReported
import Fulgur.Library.Lines
import Fulgur.Window.SingleInstance
import Fulgur.Window.OpenRequests
import Fulgur.Library.Circular
import Fulgur.Tabs.Cycling
import Fulgur.Search.Session
import Fulgur.Search.SessionRuns
import Fulgur.Remote.HostApproval
import Fulgur.Remote.ApprovalRuns
import Fulgur.Remote.RemoteWrite
import Fulgur.Remote.WriteSafety
import Fulgur.Preview.MarkdownImages
import Fulgur.State.Db.Migrations
import Fulgur.Library.Latest
import Fulgur.Files.PathBrowser
import Fulgur.Files.BrowserSettles
import Fulgur.State.Sessions
import Fulgur.State.UnsavedWork
