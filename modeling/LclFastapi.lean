import LclFastapi.Lib.Run
import LclFastapi.Runtime.State
import LclFastapi.Runtime.Lease
import LclFastapi.Runtime.LeaseExclusion
import LclFastapi.Verbose.Control
import LclFastapi.Verbose.Linearizability
import LclFastapi.Background.Journal
import LclFastapi.Background.Delivery
import LclFastapi.Runtime.Controller
import LclFastapi.Runtime.Deadlines
import LclFastapi.Runtime.Linux
import LclFastapi.Runtime.Reload
import LclFastapi.Runtime.ReloadTurnover
import LclFastapi.Background.Thread
import LclFastapi.Background.Bridge
import LclFastapi.Background.Stop
import LclFastapi.Lib.Queue
import LclFastapi.Background.Barrier
import LclFastapi.Background.Manager
import LclFastapi.Background.Retirement
import LclFastapi.Verbose.Caches
import LclFastapi.Lib.Shield
import LclFastapi.Verbose.Submission
import LclFastapi.Health.Draining
import LclFastapi.Health.Teardown
import LclFastapi.Runtime.ControlSecret
import LclFastapi.Lib.Flock
import LclFastapi.Runtime.Scopes
import LclFastapi.Lib.Dotted
import LclFastapi.Background.Logging
import LclFastapi.Runtime.Expiry
import LclFastapi.Runtime.Windows
import LclFastapi.Lib.Lexer
import LclFastapi.Render.Nginx
import LclFastapi.Render.Systemd
import LclFastapi.Background.History
import LclFastapi.Background.Promises
import LclFastapi.Background.Serving
import LclFastapi.Background.Service
import LclFastapi.Background.Resolution
import LclFastapi.Background.FinalStatus
import LclFastapi.Background.Publication
import LclFastapi.Config
import LclFastapi.Runtime.Allocation
import LclFastapi.Routes
import LclFastapi.Runtime.Graceful
import LclFastapi.Background.FailedRead
import LclFastapi.Lib.Json
import LclFastapi.Lib.Lines
import LclFastapi.Background.JournalText
import LclFastapi.Lib.Proc
import LclFastapi.Middleware.RequestContext
import LclFastapi.Runtime.LeaseRelease
import LclFastapi.Verbose.Policy
import LclFastapi.Background.Attempt
import LclFastapi.Middleware.Suppression
import LclFastapi.Lib.JsonTree
import LclFastapi.Runtime.StateFile
import LclFastapi.Lib.Message
import LclFastapi.Lib.Replay
import LclFastapi.Runtime.Transitions
import LclFastapi.Middleware.StaticDispatch
import LclFastapi.Runtime.Shutdown
import LclFastapi.Runtime.ShutdownRequests
import LclFastapi.Runtime.StopCommand
import LclFastapi.Runtime.ControllerWriter
import LclFastapi.Verbose.Status
import LclFastapi.Verbose.Adoption
import LclFastapi.Lib.ExitStack
import LclFastapi.Lifespan.Program
import LclFastapi.Lifespan.Unwinding
import LclFastapi.Overrides
import LclFastapi.Render.Deployment
import LclFastapi.Diagnostics
import LclFastapi.LogEvents
import LclFastapi.Runtime.WorkerScope
