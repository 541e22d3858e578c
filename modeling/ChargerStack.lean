import ChargerStack.Lib.Run
import ChargerStack.Lib.Statements
import ChargerStack.Lib.Fifo
import ChargerStack.Lib.LinkedList
import ChargerStack.Lib.Lru
import ChargerStack.Lib.Heap
import ChargerStack.Lib.RwLock
import ChargerStack.Lib.Executor
import ChargerStack.Lib.Regex
import ChargerStack.Lib.BitFields
import ChargerStack.Cxx.Basic
import ChargerStack.Cxx.Memory
import ChargerStack.Rapidjson.Value
import ChargerStack.Rapidjson.Path
import ChargerStack.Rapidjson.Equality
import ChargerStack.Sqlite.Value
import ChargerStack.Sqlite.Rowid
import ChargerStack.Ocpp.Message
import ChargerStack.Ocpp.Reassembly
import ChargerStack.Ocpp.FragmentBuffer
import ChargerStack.Ocpp.BasicAuth
import ChargerStack.Ocpp.Client
import ChargerStack.Ocpp.Pending
import ChargerStack.Ocpp.PendingReplies
import ChargerStack.Ocpp.PendingRetry
import ChargerStack.Ocpp.PendingPushes
import ChargerStack.Ocpp.RetryDelays
import ChargerStack.Ocpp.PromptRetries
import ChargerStack.Ocpp.Lifecycle
import ChargerStack.Ocpp.Senders
import ChargerStack.Ocpp.Queue
import ChargerStack.Ocpp.SendThread
import ChargerStack.Ocpp.BidirectionalMap
import ChargerStack.Ocpp.StatusNotification
import ChargerStack.Ocpp.Connectors
import ChargerStack.Ocpp.ConnectorUpdates
import ChargerStack.Ocpp.ConnectorTable
import ChargerStack.Ocpp.ConfigManager
import ChargerStack.Ocpp.ConfigWrites
import ChargerStack.Ocpp.ConfigDefaults
import ChargerStack.Ocpp.ConfigStore
import ChargerStack.Ocpp.ConfigDiff
import ChargerStack.Ocpp.ConfigSubscriptions
import ChargerStack.Ocpp.Url
import ChargerStack.Ocpp.UrlPattern
import ChargerStack.Ocpp.UrlParts
import ChargerStack.Ocpp.UrlParse
import ChargerStack.Ocpp.UrlRoundTrip
import ChargerStack.Ocpp.UrlEncode
import ChargerStack.Ocpp.UrlAuthority
import ChargerStack.Ocpp.UrlPort
import ChargerStack.Ocpp.ConnectInfo
import ChargerStack.Ocpp.LocalList
import ChargerStack.Ocpp.AuthentCache
import ChargerStack.Ocpp.SendLocalList
import ChargerStack.Ocpp.CheckLocalAuth
import ChargerStack.Ocpp.DbExecutor
import ChargerStack.Ocpp.Dispatch
import ChargerStack.Utils.TimerList
import ChargerStack.Utils.Deadlines
import ChargerStack.Utils.TimerLoop
import ChargerStack.Utils.NextTimeout
import ChargerStack.Utils.TimerRuns
import ChargerStack.Ocpp.TimerPool
import ChargerStack.Ocpp.TimerPoolThreads
import ChargerStack.Utils.LruCache
import ChargerStack.Utils.LruRuns
import ChargerStack.Utils.ByteOrder
import ChargerStack.Utils.PriorityQueue
import ChargerStack.Utils.Comparisons
import ChargerStack.Utils.HeapCompare
import ChargerStack.Utils.Aging
import ChargerStack.Can.ModuleQueue
import ChargerStack.Can.Frames
import ChargerStack.Utils.CanLog
import ChargerStack.Database.Retention
import ChargerStack.Database.PreparedStmt
import ChargerStack.Database.Templates
import ChargerStack.Database.TemplateResults
import ChargerStack.Database.TemplateOptions
import ChargerStack.Database.RelayCnt
import ChargerStack.ConfigFiles.CJson
import ChargerStack.Fcgi.SetRelayCnt
import ChargerStack.ConfigFiles.MergeTemplate
import ChargerStack.ConfigFiles.MergeResult
import ChargerStack.ConfigFiles.ConfigManage
import ChargerStack.ConfigFiles.ConfigLocks
import ChargerStack.ConfigFiles.OwnerList
import ChargerStack.ConfigFiles.ConfigOwners
import ChargerStack.Lib.Monitor
import ChargerStack.Lib.Progress
import ChargerStack.Ocpp.ThreadPool
import ChargerStack.Ocpp.QueueWaits
import ChargerStack.Ocpp.WebSocketSend
import ChargerStack.Ocpp.WebSocketRetry
import ChargerStack.Ocpp.SendPipeline
import ChargerStack.Lib.Calendar
import ChargerStack.Ocpp.DateTime
import ChargerStack.Sqlite.Connection
import ChargerStack.Database.Transactions
import ChargerStack.Database.CreateDatabase
import ChargerStack.Lib.Slots
import ChargerStack.Can.SetPipeline
import ChargerStack.Database.AutoDelete
import ChargerStack.Ocpp.ChargePoint
import ChargerStack.Ocpp.Restarts
import ChargerStack.Lib.Scanner
import ChargerStack.Rapidjson.Reader
import ChargerStack.Rapidjson.Grammar
import ChargerStack.Rapidjson.Writer
import ChargerStack.Rapidjson.RoundTrip
import ChargerStack.Ocpp.Frames
