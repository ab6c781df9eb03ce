import Punchgate.Library.FiniteMap
import Punchgate.Library.Mealy
import Punchgate.Library.Ranking
import Punchgate.Library.Text
import Punchgate.Library.Framing
import Punchgate.State.App
import Punchgate.Node.ConnectionState
import Punchgate.Node.Run
import Punchgate.State.Reroute
import Punchgate.State.View
import Punchgate.State.Refinement
import Punchgate.State.Conservation
import Punchgate.State.Pinning
import Punchgate.State.Retries
import Punchgate.State.Redial
import Punchgate.Node.Link
import Punchgate.Node.Attempts
import Punchgate.Node.Tracking
import Punchgate.State.Service
import Punchgate.State.Publishing
import Punchgate.State.Queries
import Punchgate.State.Representation
import Punchgate.State.Wakeups
import Punchgate.State.Composition
import Punchgate.Node.Delivery
import Punchgate.Node.Prepare
import Punchgate.Node.Operations
import Punchgate.Node.Pass
import Punchgate.Node.Agreement
import Punchgate.Node.Ledger
import Punchgate.Node.Disconnect
import Punchgate.Node.DirectPath
import Punchgate.Node.ServiceLookups
import Punchgate.Node.PeerIntents
import Punchgate.Node.Schedule
import Punchgate.Node.Reconnects
import Punchgate.Node.Stranding
import Punchgate.State.Phase
import Punchgate.State.Reservation
import Punchgate.State.RelayRequest
import Punchgate.Node.RelayListen
import Punchgate.PortMapping
import Punchgate.State.Identify
import Punchgate.State.Suppression
import Punchgate.State.RedialAddrs
import Punchgate.State.Fallback
import Punchgate.Node.DirectRegistry
import Punchgate.Node.ExternalAddrs
import Punchgate.Specs
import Punchgate.Wire
import Punchgate.State.FreshCandidates
import Punchgate.Node.Providers
import Punchgate.Library.Locality
import Punchgate.State.Independence
import Punchgate.Node.Timeouts
import Punchgate.Ipv6Text
import Punchgate.MalformedSpecs
import Punchgate.State.Provenance
import Punchgate.State.Relevance
import Punchgate.Library.Pipe
import Punchgate.Session
import Punchgate.Session.Safety
import Punchgate.Library.Inevitable
import Punchgate.Session.Progress
import Punchgate.Session.Success
import Punchgate.Session.Handshake
import Punchgate.Library.EnvFile
import Punchgate.Library.Markup
import Punchgate.Library.SortedMap
import Punchgate.ServiceFiles
import Punchgate.ServiceFiles.LaunchdPlist
import Punchgate.ServiceFiles.Daemon
import Punchgate.Library.Partial
import Punchgate.NatProbe
import Punchgate.PortMapping.Acquire
import Punchgate.Library.Simulation
import Punchgate.Node.Simulation
import Punchgate.Node.Tunnels
import Punchgate.Library.Family
import Punchgate.Session.Network
import Punchgate.Node.Discovery
import Punchgate.Identity
