import QuicView.Library.Execution
import QuicView.Library.Phases
import QuicView.Library.Standing
import QuicView.Library.Refinement
import QuicView.Library.Purge
import QuicView.Library.Interleaving
import QuicView.Library.Differencing
import QuicView.Library.Lockstep
import QuicView.Library.Hysteresis
import QuicView.Library.SlidingWindow
import QuicView.Library.IdleTimer
import QuicView.Library.Entries
import QuicView.Library.Shadowing
import QuicView.Library.Catalogue
import QuicView.Library.Ledger
import QuicView.Library.Custody
import QuicView.Library.Switches
import QuicView.Library.Watch
import QuicView.Library.Mpsc
import QuicView.Library.Wire
import QuicView.Library.ByteStream
import QuicView.Library.Arrival
import QuicView.Library.Scanner
import QuicView.Library.Chunks
import QuicView.Library.Saturating
import QuicView.Library.SignedWords
import QuicView.Library.Checked
import QuicView.Library.Ruler
import QuicView.Library.Hull
import QuicView.Net.SocketAddr
import QuicView.Net.AddrText
import QuicView.Protocol.Basic
import QuicView.Protocol.Display
import QuicView.Protocol.Frame
import QuicView.Protocol.Input
import QuicView.Protocol.Message
import QuicView.Codec.Delta
import QuicView.Codec.Bitrate
import QuicView.Codec.Convert
import QuicView.Codec.Encoder
import QuicView.Display.Surface
import QuicView.Display.Renderer
import QuicView.Display.Pipeline
import QuicView.Capture.Source
import QuicView.Capture.VirtualDisplay
import QuicView.Capture.Wall
import QuicView.Capture.Gdi
import QuicView.Capture.GdiHandles
import QuicView.Input.SendInput
import QuicView.Input.Injector
import QuicView.Input.Forwarder
import QuicView.Session.Negotiation
import QuicView.Session.Auth
import QuicView.Session.Power
import QuicView.Session.Discovery
import QuicView.Runtime.Config
import QuicView.Runtime.Metrics
import QuicView.Runtime.AtomicMetrics
import QuicView.Runtime.Shutdown
import QuicView.Transport.Cert
import QuicView.Transport.Listener
import QuicView.Transport.Mux
import QuicView.Cli.Serve
import QuicView.Cli.Session
import QuicView.Cli.Host
import QuicView.Proof.DeltaStream
import QuicView.Proof.PixelConversion
import QuicView.Proof.InputWire
import QuicView.Proof.InputRecords
import QuicView.Proof.InputChunks
import QuicView.Proof.InputDraining
import QuicView.Proof.FrameWire
import QuicView.Proof.HeaderGrammar
import QuicView.Proof.BitrateState
import QuicView.Proof.BitrateMonotone
import QuicView.Proof.BitrateRange
import QuicView.Proof.BitrateWindow
import QuicView.Proof.BitrateHeadroom
import QuicView.Proof.BitrateSpeed
import QuicView.Proof.BitrateThresholds
import QuicView.Proof.FrameSkipping
import QuicView.Proof.RateLimit
import QuicView.Proof.FrameSizes
import QuicView.Proof.BufferSizes
import QuicView.Proof.SurfaceRuns
import QuicView.Proof.VideoPipeline
import QuicView.Proof.VirtualDisplayMap
import QuicView.Proof.WallLedger
import QuicView.Proof.WallRemoval
import QuicView.Proof.WallMap
import QuicView.Proof.WallTiles
import QuicView.Proof.BoundingBox
import QuicView.Proof.UniformWall
import QuicView.Proof.LayoutOverflow
import QuicView.Proof.GdiHandles
import QuicView.Proof.CaptureRecording
import QuicView.Proof.MouseRange
import QuicView.Proof.InputBatch
import QuicView.Proof.HeldControls
import QuicView.Proof.ForwarderDelivery
import QuicView.Proof.ForwarderRest
import QuicView.Proof.NegotiationRuns
import QuicView.Proof.NegotiationProtocol
import QuicView.Proof.KeyCheck
import QuicView.Proof.PowerIdle
import QuicView.Proof.PowerViews
import QuicView.Proof.DiscoveryRegistry
import QuicView.Proof.SnapshotConsistency
import QuicView.Proof.MetricsTotals
import QuicView.Proof.ShutdownDelivery
import QuicView.Proof.ShutdownViews
import QuicView.Proof.AddrText
import QuicView.Proof.BindAddress
import QuicView.Proof.PinnedCertificate
import QuicView.Proof.ServeLoop
import QuicView.Proof.ConnectionAccounting
import QuicView.Proof.ShutdownDrain
import QuicView.Proof.ControlExchange
import QuicView.Proof.ExchangeSchedule
import QuicView.Proof.HostAccounting
import QuicView.Proof.FailedStreams
import QuicView.Proof.ViewerIsolation
