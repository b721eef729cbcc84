import PeerRpc.Arguments
import PeerRpc.Channel.Bench
import PeerRpc.Codec
import PeerRpc.Config
import PeerRpc.Crc32
import PeerRpc.Frame
import PeerRpc.Opening
import PeerRpc.Registry
import PeerRpc.Router
import PeerRpc.Service.Kit
import PeerRpc.Session.Control
import PeerRpc.Session.Peer
import PeerRpc.Proofs.Endpoint.Operations
import PeerRpc.Proofs.Endpoint.Regular
import PeerRpc.Proofs.Host.Basic
import PeerRpc.Proofs.Host.Accounts
import PeerRpc.Proofs.Endpoint.Results
import PeerRpc.Proofs.Host.Settlement
import PeerRpc.Proofs.Codec.Depth
import PeerRpc.Proofs.Endpoint.Answers
import PeerRpc.Proofs.Endpoint.Traffic
import PeerRpc.Proofs.Endpoint.Openings
import PeerRpc.Proofs.Host.Traffic
import PeerRpc.Proofs.Host.Replies
import PeerRpc.Proofs.Text.Blocks
import PeerRpc.Proofs.Cbor.Heads
import PeerRpc.Proofs.Cbor.Messages
import PeerRpc.Proofs.Codec.Size
import PeerRpc.Proofs.Duo.Basic
import PeerRpc.Proofs.Duo.Calls
import PeerRpc.Proofs.Duo.Cancels
import PeerRpc.Proofs.Duo.Rest
import PeerRpc.Proofs.Host.Lasting
import PeerRpc.Proofs.Host.Terms
import PeerRpc.Proofs.Cbor.Refusals
import PeerRpc.Proofs.Codec.Delivery
import PeerRpc.Proofs.Frame.Chunks
import PeerRpc.Proofs.Frame.Grammar
import PeerRpc.Proofs.Course.Basic
import PeerRpc.Proofs.Course.Closing
import PeerRpc.Proofs.Schedule
import PeerRpc.Proofs.Session.Courses
import PeerRpc.Proofs.Session.OnPair
import PeerRpc.Proofs.Stream.Writing
import PeerRpc.Proofs.Stream.Reading
import PeerRpc.Proofs.Stream.Tasks
import PeerRpc.Proofs.Bench.Basic
import PeerRpc.Proofs.Bench.Desk
import PeerRpc.Proofs.Bench.Custody
import PeerRpc.Proofs.Bench.Ledger
import PeerRpc.Proofs.Bench.Receipts
import PeerRpc.Proofs.Bench.Seats
import PeerRpc.Proofs.Bench.Desks
import PeerRpc.Proofs.Bench.Pair
import PeerRpc.Proofs.Bench.Alone
import PeerRpc.Proofs.Bench.Lengths
import PeerRpc.Proofs.Host.Offers
import PeerRpc.Proofs.Host.Discipline
import PeerRpc.Proofs.Host.Deadlines
import PeerRpc.Proofs.Crowd.Openings
import PeerRpc.Proofs.Rush.Order
import PeerRpc.Proofs.Bench.MemoryPair
import PeerRpc.Proofs.Session.Cancelled
import PeerRpc.Proofs.Identifier.Table
import PeerRpc.Proofs.Host.Registrations
import PeerRpc.Proofs.Host.Sides
import PeerRpc.Proofs.Host.Services
import PeerRpc.Proofs.Session.Performance
import PeerRpc.Proofs.Session.Reload
import PeerRpc.Proofs.Codec.Typed
import PeerRpc.Proofs.Crc32.Bursts
import PeerRpc.Proofs.Frame.Damage
import PeerRpc.Proofs.Host.Identities
