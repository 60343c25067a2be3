import OppexSdk.Lib.Transition
import OppexSdk.Lib.Condvar
import OppexSdk.Lib.Places
import OppexSdk.Lib.Lifecycle
import OppexSdk.Lib.Ledger
import OppexSdk.Rust.Dispatcher
import OppexSdk.Rust.DispatcherSafety
import OppexSdk.Rust.DispatcherWakeup
import OppexSdk.Cpp.AsyncDispatcher
import OppexSdk.Cpp.DispatcherWakeup
import OppexSdk.Rust.DispatcherShutdown
import OppexSdk.Lib.Retry
import OppexSdk.Lib.Bytes
import OppexSdk.Lib.JsonGrammar
import OppexSdk.Lib.JsonParser
import OppexSdk.Lib.Binary64
import OppexSdk.Lib.FromChars
import OppexSdk.Lib.Interaction
import OppexSdk.Lib.JavaScript
import OppexSdk.Rust.Retry
import OppexSdk.Rust.Transport
import OppexSdk.Cpp.RetryPolicy
import OppexSdk.Cpp.Json
import OppexSdk.Cpp.JsonRefinement
import OppexSdk.Cpp.JsonMeaning
import OppexSdk.Cpp.WireCodec
import OppexSdk.Cpp.WireRoundTrip
import OppexSdk.Cpp.HttpTransport
import OppexSdk.Python.Dispatcher
import OppexSdk.Python.DispatcherAccounting
import OppexSdk.Python.DispatcherClose
import OppexSdk.Node.IncidentRequest
import OppexSdk.Node.IncidentClient
import OppexSdk.Node.Delivery
import OppexSdk.Node.NeverThrows
import OppexSdk.Lib.JsonWriter
import OppexSdk.Rust.Request
import OppexSdk.Rust.Wire
import OppexSdk.Rust.Client
import OppexSdk.Rust.ClientShutdown
import OppexSdk.Rust.ClientPayload
import OppexSdk.Lib.Channel
import OppexSdk.Lib.RWMutex
import OppexSdk.Go.Dispatcher
import OppexSdk.Go.DispatcherSubmission
import OppexSdk.Lib.SlotQueue
import OppexSdk.Node.AsyncDispatcher
import OppexSdk.Node.DispatcherRefinement
import OppexSdk.Node.DispatcherScheduling
import OppexSdk.Node.DispatcherQueue
import OppexSdk.Lib.Monitor
import OppexSdk.Node.Questions
import OppexSdk.Node.AsyncPayload
import OppexSdk.Node.Callbacks
import OppexSdk.Node.TaskOutcome
import OppexSdk.Node.FailureStatus
import OppexSdk.Cpp.ErrorText
import OppexSdk.Python.DropAccounting
import OppexSdk.Python.DispatcherJoins
import OppexSdk.Python.Client
import OppexSdk.Python.ClientShutdown
import OppexSdk.Python.HttpExecutor
import OppexSdk.Python.ConnectionPool
import OppexSdk.Ruby.Dispatcher
import OppexSdk.Ruby.DispatcherWakeup
import OppexSdk.Go.Abandonment
import OppexSdk.Go.Client
import OppexSdk.Go.ClientLifecycle
import OppexSdk.Lib.ThreadPool
import OppexSdk.Java.AsyncDispatcher
import OppexSdk.Java.DispatcherAccounting
import OppexSdk.Java.DispatcherShutdown
import OppexSdk.DotNet.AsyncDispatcher
import OppexSdk.DotNet.DispatcherLedger
import OppexSdk.DotNet.Abandonment
import OppexSdk.DotNet.IncidentClient
import OppexSdk.DotNet.Disposal
import OppexSdk.Rust.TaskPanics
import OppexSdk.Lib.Utf8
import OppexSdk.Cpp.JsonEscaping
import OppexSdk.Lib.DecimalValue
import OppexSdk.Cpp.ResponseCode
import OppexSdk.Cpp.QueuedDelivery
import OppexSdk.Ruby.WorkerSurvival
import OppexSdk.Lib.Runes
import OppexSdk.Go.Wire
import OppexSdk.Go.ServiceKey
import OppexSdk.Lib.Tracing
import OppexSdk.Cpp.JsonMachine
import OppexSdk.Cpp.JsonSafety
import OppexSdk.Lib.JsonReader
import OppexSdk.Go.Response
import OppexSdk.Lib.JsonTokens
import OppexSdk.Java.JsonCodec
import OppexSdk.Python.JsonCodec
import OppexSdk.Python.Posting
import OppexSdk.Cpp.AsIntLimits
import OppexSdk.Lib.JsonUtf8
import OppexSdk.Cpp.JsonUtf8
import OppexSdk.Java.DropLogger
import OppexSdk.Lib.JavaScriptJson
import OppexSdk.Node.PayloadSchema
import OppexSdk.Lib.Simulation
import OppexSdk.Lib.BoundedPool
import OppexSdk.Cpp.DispatcherPool
import OppexSdk.Cpp.DispatcherReports
import OppexSdk.Ruby.DispatcherPool
import OppexSdk.Lib.Backoff
import OppexSdk.Go.Retry
import OppexSdk.DotNet.RetryPolicy
import OppexSdk.Ruby.RetryExecutor
import OppexSdk.Java.RetryExecutor
import OppexSdk.Python.RetryExecutor
import OppexSdk.Parity.Retries
import OppexSdk.Cpp.Interrupt
import OppexSdk.Lib.Latch
import OppexSdk.Cpp.CApi
import OppexSdk.Cpp.Client
import OppexSdk.Lib.Checks
import OppexSdk.Lib.Ownership
import OppexSdk.Lib.JsonStrings
import OppexSdk.DotNet.Request
import OppexSdk.Java.Client
import OppexSdk.Ruby.Client
import OppexSdk.Java.JsonParser
import OppexSdk.Java.TokenParser
import OppexSdk.Node.Submission
