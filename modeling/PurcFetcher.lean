import PurcFetcher.Ipc.Bounds
import PurcFetcher.Ipc.Outgoing
import PurcFetcher.Ipc.WakeUp
import PurcFetcher.Ipc.SyncDispatch
import PurcFetcher.Ipc.Incoming
import PurcFetcher.Cache.RecordFilter
import PurcFetcher.Cache.Removal
import PurcFetcher.Cache.ReadYourWrites
import PurcFetcher.Loader.Credentials
import PurcFetcher.Loader.Tainting
import PurcFetcher.Loader.PreflightCache
import PurcFetcher.WebStorage.StorageManager
import PurcFetcher.WebStorage.QuotaManager
import PurcFetcher.DomCache.Size
import PurcFetcher.DomCache.Deletion
import PurcFetcher.Filter.Progression
import PurcFetcher.Filter.Ignore
import PurcFetcher.Filter.Variants
import PurcFetcher.Filter.LinePieces
import PurcFetcher.MessagePort.Delivery
import PurcFetcher.Task.SqlResults
import PurcFetcher.DomCache.ListRuns
import PurcFetcher.DomCache.Vary
import PurcFetcher.Task.CmdFilter
import PurcFetcher.Task.SqlQueries
import PurcFetcher.Task.Command
import PurcFetcher.Ipc.HandOver
import PurcFetcher.Ipc.AsyncReplies
import PurcFetcher.Ipc.InvalidMessages
import PurcFetcher.Http.Revalidation
import PurcFetcher.Ipc.VariantIndex
import PurcFetcher.Loader.VaryingHeaders
import PurcFetcher.Http.CacheDirectives
import PurcFetcher.Cache.IOChannel
import PurcFetcher.Cache.RecordRanges
import PurcFetcher.Cache.Handlers
import PurcFetcher.Ipc.CacheRecords
import PurcFetcher.WebStorage.KeyIteration
import PurcFetcher.WebStorage.SharedMaps
import PurcFetcher.WebStorage.Suspension
import PurcFetcher.Loader.CredentialStorage
import PurcFetcher.Cache.PrefetchCache
import PurcFetcher.Http.FormDataBuilder
import PurcFetcher.Http.ParsedHeaders
import PurcFetcher.Http.FormData
import PurcFetcher.Http.MediaType
