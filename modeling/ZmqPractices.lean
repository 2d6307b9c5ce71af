import ZmqPractices.Lib.Transition
import ZmqPractices.Lib.Traced
import ZmqPractices.Lib.Channel
import ZmqPractices.Lib.Lease
import ZmqPractices.Lib.Table
import ZmqPractices.Lib.Backoff
import ZmqPractices.Lib.Decimal
import ZmqPractices.Lib.Printed
import ZmqPractices.Lib.Weight
import ZmqPractices.Lib.Progress
import ZmqPractices.Czmq.Message
import ZmqPractices.Czmq.Format
import ZmqPractices.Czmq.List
import ZmqPractices.LazyPirate.Client
import ZmqPractices.LazyPirate.Requests
import ZmqPractices.LazyPirate.Service
import ZmqPractices.LazyPirate.Echo
import ZmqPractices.LazyPirate.Front
import ZmqPractices.LazyPirate.Relay
import ZmqPractices.LazyPirate.Server
import ZmqPractices.SimplePirate.Queue
import ZmqPractices.SimplePirate.Order
import ZmqPractices.SimplePirate.Replies
import ZmqPractices.SimplePirate.System
import ZmqPractices.SimplePirate.EndToEnd
import ZmqPractices.SimplePirate.Available
import ZmqPractices.Pirate.Queue
import ZmqPractices.Pirate.WorkerList
import ZmqPractices.Pirate.Expiry
import ZmqPractices.Pirate.Identity
import ZmqPractices.Pirate.Malformed
import ZmqPractices.Pirate.Worker
import ZmqPractices.Pirate.System
import ZmqPractices.Pirate.OneRequest
import ZmqPractices.Pirate.InFlight
import ZmqPractices.Pirate.Reconnect
import ZmqPractices.Pirate.EndToEnd
import ZmqPractices.Majordomo.Protocol
import ZmqPractices.Majordomo.Broker
import ZmqPractices.Majordomo.System
import ZmqPractices.Majordomo.Consistent
import ZmqPractices.Majordomo.Dispatch
import ZmqPractices.Majordomo.Registry
import ZmqPractices.Majordomo.Reserved
import ZmqPractices.Majordomo.Purge
import ZmqPractices.Majordomo.Availability
import ZmqPractices.Majordomo.Client
import ZmqPractices.Majordomo.Retries
import ZmqPractices.Majordomo.Worker
import ZmqPractices.Majordomo.Session
import ZmqPractices.Majordomo.Liveness
import ZmqPractices.Majordomo.Backoff
import ZmqPractices.Majordomo.ReplyPath
import ZmqPractices.Majordomo.ReplySlot
import ZmqPractices.Peering.Prototype
import ZmqPractices.Peering.System
import ZmqPractices.Peering.Envelopes
import ZmqPractices.Peering.Custody
import ZmqPractices.Peering.Replies
import ZmqPractices.Peering.Capacity
import ZmqPractices.Peering.Loop
import ZmqPractices.Peering.Routing
import ZmqPractices.Peering.Tokens
import ZmqPractices.Peering.StateFlow
import ZmqPractices.Peering.Refinement
import ZmqPractices.Peering.Naming
import ZmqPractices.TaskFarm.Rtreq
import ZmqPractices.TaskFarm.Termination
import ZmqPractices.TaskFarm.Deadline
import ZmqPractices.ZmqX.Endpoints
import ZmqPractices.ZmqX.Resolver
import ZmqPractices.ZmqX.Coherence
import ZmqPractices.ZmqX.Bounds
import ZmqPractices.CzmqX.Sockets
import ZmqPractices.CzmqX.Rebind
import ZmqPractices.Pipeline.System
import ZmqPractices.Pipeline.Batch
import ZmqPractices.Hello.System
import ZmqPractices.Hello.Quit
import ZmqPractices.TaskFlow.System
import ZmqPractices.TaskFlow.Hops
import ZmqPractices.TaskFlow.Custody
import ZmqPractices.TaskFlow.Answers
import ZmqPractices.TaskFlow.Progress
import ZmqPractices.Zhelpers.Random
import ZmqPractices.Zhelpers.Dump
import ZmqPractices.Lib.Emulation
import ZmqPractices.TaskFarm.Rtdealer
import ZmqPractices.TaskFarm.Dealers
import ZmqPractices.AsyncServer.System
import ZmqPractices.AsyncServer.Ledger
import ZmqPractices.AsyncServer.Answers
import ZmqPractices.AsyncServer.Progress
import ZmqPractices.Lib.Parts
import ZmqPractices.Lib.Feed
import ZmqPractices.Lib.Fifo
import ZmqPractices.StatusFlow.System
import ZmqPractices.StatusFlow.Lines
import ZmqPractices.Majordomo.Queueing
import ZmqPractices.CzmqX.Hosts
import ZmqPractices.CzmqX.Agreement
import ZmqPractices.HelloWorld.System
import ZmqPractices.HelloWorld.Replies
