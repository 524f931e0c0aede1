import Imghost.Async.Program
import Imghost.Async.Logic
import Imghost.Async.Pool
import Imghost.Async.Moments
import Imghost.Async.Watched
import Imghost.Async.Gate
import Imghost.Data.Snapshot
import Imghost.Async.WriteBack
import Imghost.Data.Table
import Imghost.Data.Window
import Imghost.Data.Events
import Imghost.Data.Fairness
import Imghost.Data.Tally
import Imghost.Data.Trim
import Imghost.Data.Fresh
import Imghost.Model.Types
import Imghost.Model.Stdlib
import Imghost.Model.Digits
import Imghost.Model.Runtime
import Imghost.Model.World
import Imghost.Model.Floats
import Imghost.Model.Frames
import Imghost.Model.Repository
import Imghost.Service.Access
import Imghost.Service.Upload
import Imghost.Service.Thumbnails
import Imghost.Service.Albums
import Imghost.Service.Accounts
import Imghost.Service.Operations
import Imghost.Service.Footprint
import Imghost.Service.Recovery
import Imghost.Service.Positions
import Imghost.Service.Alone
import Imghost.Service.Steps
import Imghost.Service.Archive
import Imghost.Service.AlbumSearch
import Imghost.Sequential.Authority
import Imghost.Sequential.History
import Imghost.Sequential.Room
import Imghost.Sequential.Arrangement
import Imghost.Sequential.AllOrNothing
import Imghost.Client.AlbumOrder
import Imghost.Data.DirTree
import Imghost.Data.Entries
import Imghost.Concurrency.ItemCap
import Imghost.Concurrency.Acknowledged
import Imghost.Concurrency.AlbumColumns
import Imghost.Concurrency.UserColumns
import Imghost.Concurrency.Orphans
import Imghost.Concurrency.Reorder
import Imghost.Concurrency.Appends
import Imghost.Concurrency.Ownership
import Imghost.Concurrency.Cover
import Imghost.Concurrency.ThumbnailRuns
import Imghost.Concurrency.StaleRows
import Imghost.Limits.InMemory
import Imghost.Limits.Redis
import Imghost.Limits.RedisLimiters
import Imghost.Limits.Expiry
import Imghost.Limits.Admission
import Imghost.Limits.Alone
import Imghost.Limits.Windows
import Imghost.Limits.Denied
import Imghost.Limits.HourlyBudget
import Imghost.Limits.Lockout
import Imghost.Limits.LoginKeys
import Imghost.Tokens.Signed
import Imghost.Tokens.Hostile
import Imghost.Scheduler.Service
import Imghost.Scheduler.Exclusion
import Imghost.Sessions.Backend
import Imghost.Sessions.Logout
import Imghost.Tasks.Life
import Imghost.Tasks.Types
import Imghost.Tasks.AsyncQueue
import Imghost.Tasks.Draining
import Imghost.Tasks.RedisQueue
import Imghost.Tasks.RedisLife
import Imghost.Tasks.Handover
import Imghost.Tasks.ActiveJobs
import Imghost.Tasks.SyncQueue
import Imghost.Tasks.Backends
import Imghost.Tasks.RetryQueues
import Imghost.Web.ByteRange
import Imghost.Web.Url
import Imghost.Web.PublicOrigin
import Imghost.Web.OriginErrors
import Imghost.Web.OriginForms
import Imghost.Web.UrlText
import Imghost.Web.UrlParts
import Imghost.Web.Query
import Imghost.Telemetry.SanitizeUrl
import Imghost.Telemetry.Redaction
import Imghost.Web.Navigation
import Imghost.Web.NextPath
import Imghost.Auth.Principal
import Imghost.Auth.Csrf
import Imghost.Auth.KeyRotation
import Imghost.Tokens.RoundTrip
import Imghost.Data.Calendar
import Imghost.Model.IsoFormat
import Imghost.Data.JsonString
import Imghost.Tokens.JsonText
import Imghost.Sessions.TokenLife
import Imghost.Tokens.Families
import Imghost.OAuth.Confirmation
import Imghost.OAuth.Login
import Imghost.OAuth.LoginMethods
import Imghost.OAuth.Callback
import Imghost.OAuth.FlowLog
import Imghost.OAuth.Flows
import Imghost.ShareX.Capabilities
import Imghost.ShareX.Rows
import Imghost.ShareX.Submit
import Imghost.ShareX.Replay
import Imghost.ShareX.Refusals
import Imghost.ShareX.Deletions
import Imghost.ShareX.Suspension
import Imghost.Audit.UserEdits
import Imghost.Audit.AlbumEdits
import Imghost.Data.Sums
import Imghost.Data.Binary64
import Imghost.Data.Counts
import Imghost.Accounting.Books
import Imghost.Accounting.Freed
import Imghost.Accounting.Quotas
import Imghost.Accounting.UploadQuotas
import Imghost.Accounting.Usage
import Imghost.Accounting.PruneReport
import Imghost.Accounting.DryRun
import Imghost.Thumbnails.Consistency
import Imghost.Nodes.Heap
import Imghost.Nodes.Iter
import Imghost.Svg.Sanitize
import Imghost.Svg.Revisits
import Imghost.Svg.Dimensions
import Imghost.Processors.Image
import Imghost.Processors.Registry
import Imghost.Processors.FrameIndexes
import Imghost.Config.RuntimeConfig
import Imghost.Config.Updates
import Imghost.Config.RedisUrl
import Imghost.Config.Expiry
import Imghost.Storage.Streams
import Imghost.Storage.ZipStreaming
import Imghost.Storage.ZipProgress
import Imghost.Storage.Filesystem
import Imghost.Web.Media
import Imghost.Limits.LoginHistory
import Imghost.Client.AnonAlbums
