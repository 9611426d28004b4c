import BeastRouter.Foundation.Transition
import BeastRouter.Foundation.SingleServer
import BeastRouter.Foundation.ShortCircuit
import BeastRouter.Foundation.RwLock
import BeastRouter.Foundation.WaitFor
import BeastRouter.Foundation.ValueCategory
import BeastRouter.Base.ErrorCode
import BeastRouter.Base.ConnQueue
import BeastRouter.Common.Timer
import BeastRouter.Session
import BeastRouter.Session.Frame
import BeastRouter.Session.WriteQueue
import BeastRouter.Session.Reporting
import BeastRouter.Session.Deadlines
import BeastRouter.Session.Cancellation
import BeastRouter.Session.Receive
import BeastRouter.Session.Reads
import BeastRouter.Session.Handshake
import BeastRouter.Session.Terminal
import BeastRouter.Session.Shutdown
import BeastRouter.Session.Sending
import BeastRouter.Common.Utility
import BeastRouter.Base.Storage
import BeastRouter.Base.Storage.Bind
import BeastRouter.Router
import BeastRouter.Base.Dispatcher
import BeastRouter.Base.Dispatcher.Fallback
import BeastRouter.Base.Dispatcher.Routes
import BeastRouter.Base.Dispatcher.NotFound
import BeastRouter.Base.Dispatcher.IllFormed
import BeastRouter.Base.Dispatcher.Order
import BeastRouter.Router.Concurrent
import BeastRouter.Router.Sequential
import BeastRouter.Router.Consistency
import BeastRouter.Router.Blocking
import BeastRouter.Session.Dispatch
import BeastRouter.Server
import BeastRouter.Listener
import BeastRouter.Listener.Close
import BeastRouter.Listener.Delivery
import BeastRouter.Common.EventLoop
import BeastRouter.Common.EventLoop.Join
import BeastRouter.Server.Answers
import BeastRouter.Server.Runs
import BeastRouter.Foundation.Unwinding
import BeastRouter.Server.Isolation
import BeastRouter.Server.NotFound
import BeastRouter.Server.Conversation
import BeastRouter.Server.Program
import BeastRouter.Server.Service
import BeastRouter.Connector
import BeastRouter.Router.Alias
import BeastRouter.Session.Wire
import BeastRouter.Common.HttpUtility
import BeastRouter.Foundation.PathName
import BeastRouter.Session.Responses
import BeastRouter.Examples.TimeCounter
import BeastRouter.Foundation.Serial
import BeastRouter.Server.Serial
import BeastRouter.Examples.Client
import BeastRouter.Server.Pool
import BeastRouter.Server.Reduction
import BeastRouter.Server.Threads
import BeastRouter.Foundation.Inevitable
import BeastRouter.Router.Termination
import BeastRouter.Server.Rest
import BeastRouter.Examples.HelloWorld
import BeastRouter.Session.Ownership
