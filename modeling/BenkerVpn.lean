import BenkerVpn.Library.Runs
import BenkerVpn.Library.Observations
import BenkerVpn.Library.Outcomes
import BenkerVpn.Library.Buckets
import BenkerVpn.Library.PartialBijection
import BenkerVpn.Library.WrappingCounter
import BenkerVpn.Library.BoundedSearch
import BenkerVpn.Library.Octets
import BenkerVpn.Library.OnesComplement
import BenkerVpn.Library.Accesses
import BenkerVpn.Library.Chains
import BenkerVpn.Library.Descriptors
import BenkerVpn.Model.SessionStruct
import BenkerVpn.Model.ProtocolHeaders
import BenkerVpn.Model.HeaderAccesses
import BenkerVpn.Model.PacketHandler
import BenkerVpn.Model.HandlerAccesses
import BenkerVpn.Model.Server
import BenkerVpn.Model.Client
import BenkerVpn.Model.Vpn
import BenkerVpn.Model.Setup
import BenkerVpn.Model.SessionMemory
import BenkerVpn.Model.ServerMemory
import BenkerVpn.Packet.Rewriting
import BenkerVpn.Packet.Checksum
import BenkerVpn.Packet.Validation
import BenkerVpn.Packet.Sealed
import BenkerVpn.Packet.Summing
import BenkerVpn.Packet.Reset
import BenkerVpn.Packet.Leftover
import BenkerVpn.Packet.Bounds
import BenkerVpn.Session.Index
import BenkerVpn.Session.Ports
import BenkerVpn.Session.Clean
import BenkerVpn.Session.Agreement
import BenkerVpn.Session.Bijection
import BenkerVpn.Session.Coverage
import BenkerVpn.Session.Insertion
import BenkerVpn.Session.Expiry
import BenkerVpn.Session.StackContents
import BenkerVpn.Session.PortArithmetic
import BenkerVpn.Handler.Outcome
import BenkerVpn.Handler.Packets
import BenkerVpn.Handler.Step
import BenkerVpn.Handler.Flags
import BenkerVpn.Handler.Translation
import BenkerVpn.Handler.KeepAlive
import BenkerVpn.Handler.RoundTrip
import BenkerVpn.Handler.Admission
import BenkerVpn.Handler.Tracking
import BenkerVpn.Handler.Edges
import BenkerVpn.Handler.FinAcknowledged
import BenkerVpn.Handler.Isolation
import BenkerVpn.Handler.Noninterference
import BenkerVpn.Handler.Retransmission
import BenkerVpn.Handler.Rejection
import BenkerVpn.Handler.Leftover
import BenkerVpn.Handler.Bounds
import BenkerVpn.Server.Loop
import BenkerVpn.Server.Reply
import BenkerVpn.Server.Service
import BenkerVpn.Server.Exhaustion
import BenkerVpn.Server.Occupancy
import BenkerVpn.Server.Untracked
import BenkerVpn.Server.Leftover
import BenkerVpn.Server.Bounds
import BenkerVpn.Memory.Lists
import BenkerVpn.Memory.Refinement
import BenkerVpn.Memory.Runs
import BenkerVpn.Memory.Teardown
import BenkerVpn.Memory.Server
import BenkerVpn.System.Client
import BenkerVpn.System.Translation
import BenkerVpn.System.RoundTrip
import BenkerVpn.System.Checksums
import BenkerVpn.System.Setup
