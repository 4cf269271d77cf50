import Sockify.Behaviour
import Sockify.Buffer
import Sockify.Cli
import Sockify.Config
import Sockify.Core
import Sockify.Digest
import Sockify.Driving
import Sockify.Event.Interests
import Sockify.Event.Kernel
import Sockify.Event.Poll
import Sockify.Event.Source
import Sockify.Event.WatchSet
import Sockify.Framing
import Sockify.Interface
import Sockify.Lib.Blocks
import Sockify.Lib.Circular
import Sockify.Lib.Fifo
import Sockify.Lib.History
import Sockify.Lib.Leases
import Sockify.Lib.Machine
import Sockify.Lib.Metered
import Sockify.Lib.Rfc3174
import Sockify.Lib.Rfc4648
import Sockify.Lib.Spans
import Sockify.Lib.Stateful
import Sockify.Lib.SwapRemove
import Sockify.Lib.Unwinding
import Sockify.Lib.Wrapping
import Sockify.Lifecycle
import Sockify.Net
import Sockify.Proofs.Absorption
import Sockify.Proofs.AcceptValue
import Sockify.Proofs.Backends
import Sockify.Proofs.Backpressure
import Sockify.Proofs.Base64
import Sockify.Proofs.BoundedWork
import Sockify.Proofs.BufferQueue
import Sockify.Proofs.BufferRefinement
import Sockify.Proofs.Building
import Sockify.Proofs.Changes
import Sockify.Proofs.ClientMessages
import Sockify.Proofs.ClientReads
import Sockify.Proofs.ClientSecurity
import Sockify.Proofs.ClientSimulation
import Sockify.Proofs.ClientStream
import Sockify.Proofs.CloseReads
import Sockify.Proofs.ClosingHandshake
import Sockify.Proofs.CommandAcceptance
import Sockify.Proofs.CommandLine
import Sockify.Proofs.CommandOrder
import Sockify.Proofs.CommandValues
import Sockify.Proofs.ControlOnsets
import Sockify.Proofs.ControlPieces
import Sockify.Proofs.ControlReplies
import Sockify.Proofs.Creation
import Sockify.Proofs.Deadlines
import Sockify.Proofs.Delivery
import Sockify.Proofs.DescriptorLedger
import Sockify.Proofs.EndOfStream
import Sockify.Proofs.Endpoints
import Sockify.Proofs.FrameGrammar
import Sockify.Proofs.FrameLayout
import Sockify.Proofs.FrameRoundTrip
import Sockify.Proofs.GracefulClose
import Sockify.Proofs.HandshakeGrammar
import Sockify.Proofs.Interest
import Sockify.Proofs.KernelDispatch
import Sockify.Proofs.KernelInterests
import Sockify.Proofs.LengthFields
import Sockify.Proofs.Lifecycle
import Sockify.Proofs.Lifetimes
import Sockify.Proofs.Locality
import Sockify.Proofs.Newcomers
import Sockify.Proofs.Noninterference
import Sockify.Proofs.OutputSizes
import Sockify.Proofs.ParserCursor
import Sockify.Proofs.ParserInvariant
import Sockify.Proofs.ParserProgress
import Sockify.Proofs.ParserSegmentation
import Sockify.Proofs.PingReplies
import Sockify.Proofs.PipelinedFrames
import Sockify.Proofs.PollDispatch
import Sockify.Proofs.Registry
import Sockify.Proofs.ReleasedLookups
import Sockify.Proofs.Releases
import Sockify.Proofs.ServerRegistry
import Sockify.Proofs.SessionLogic
import Sockify.Proofs.SessionSteps
import Sockify.Proofs.Sha1
import Sockify.Proofs.Soundness
import Sockify.Proofs.TargetEndings
import Sockify.Proofs.TargetReads
import Sockify.Proofs.TargetSecurity
import Sockify.Proofs.TargetSimulation
import Sockify.Proofs.TargetStream
import Sockify.Proofs.UpgradeDecision
import Sockify.Proofs.UpgradeRuns
import Sockify.Proofs.UpgradeSegmentation
import Sockify.Proofs.WriteRetries
import Sockify.Receiver
import Sockify.Resources
import Sockify.Server
import Sockify.Session
import Sockify.Streams
import Sockify.World
import Sockify.Ws.Frame
import Sockify.Ws.Handshake
