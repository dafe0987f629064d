import TripTorrent.Codec.Base32
import TripTorrent.Codec.Bencode
import TripTorrent.Codec.BigEndian
import TripTorrent.Codec.Bits
import TripTorrent.Codec.Cursor
import TripTorrent.Codec.Decimal
import TripTorrent.Codec.Framing
import TripTorrent.Codec.Hex
import TripTorrent.Codec.Lines
import TripTorrent.Codec.Outcome
import TripTorrent.Codec.Percent
import TripTorrent.Codec.PrefixFree
import TripTorrent.Codec.Slices
import TripTorrent.Codec.Text
import TripTorrent.Codec.Varint
import TripTorrent.Codec.Words
import TripTorrent.Core.Chunking
import TripTorrent.Core.Content
import TripTorrent.Core.Identifier
import TripTorrent.Core.Postcard
import TripTorrent.Desktop.Controller
import TripTorrent.Desktop.Lifecycle
import TripTorrent.Hashing.Merkle
import TripTorrent.Interop.Bencode
import TripTorrent.Interop.Canonical
import TripTorrent.Interop.FileRoot
import TripTorrent.Interop.FileTree
import TripTorrent.Interop.Forms
import TripTorrent.Interop.Identity
import TripTorrent.Interop.Links
import TripTorrent.Interop.Magnet
import TripTorrent.Interop.Metainfo
import TripTorrent.Interop.Topics
import TripTorrent.Leasing.Log
import TripTorrent.Leasing.Renewal
import TripTorrent.Leasing.Table
import TripTorrent.Node.Advertised
import TripTorrent.Node.Api
import TripTorrent.Node.Control
import TripTorrent.Node.Effects
import TripTorrent.Node.Http
import TripTorrent.Node.Library
import TripTorrent.Node.Lifecycle
import TripTorrent.Node.Limit
import TripTorrent.Node.Listing
import TripTorrent.Node.Orderly
import TripTorrent.Node.Ownership
import TripTorrent.Node.Pausing
import TripTorrent.Node.Runtime
import TripTorrent.Node.Sharing
import TripTorrent.Node.Starting
import TripTorrent.Node.Transfers
import TripTorrent.Noninterference
import TripTorrent.Overlay.Accounting
import TripTorrent.Overlay.Answers
import TripTorrent.Overlay.Client
import TripTorrent.Overlay.Discovery
import TripTorrent.Overlay.Invariant
import TripTorrent.Overlay.Leases
import TripTorrent.Overlay.Observation
import TripTorrent.Overlay.Providers
import TripTorrent.Overlay.Registry
import TripTorrent.Overlay.Rendezvous
import TripTorrent.Overlay.Renewal
import TripTorrent.Overlay.Routes
import TripTorrent.Overlay.Service
import TripTorrent.Protocol.Availability
import TripTorrent.Protocol.Grammar
import TripTorrent.Protocol.Languages
import TripTorrent.Protocol.Message
import TripTorrent.Protocol.RoundTrip
import TripTorrent.Protocol.Servable
import TripTorrent.Protocol.Sizes
import TripTorrent.Protocol.Wire
import TripTorrent.Queueing.Ledger
import TripTorrent.Queueing.Permits
import TripTorrent.Queueing.Recent
import TripTorrent.Queueing.Server
import TripTorrent.Queueing.Total
import TripTorrent.Relay.Channels
import TripTorrent.Relay.Encrypted
import TripTorrent.Relay.Framing
import TripTorrent.Relay.Pairing
import TripTorrent.Relay.Registration
import TripTorrent.Relay.Service
import TripTorrent.Relay.Table
import TripTorrent.Research.Convergence
import TripTorrent.Research.Diversity
import TripTorrent.Research.Facing
import TripTorrent.Research.Lookup
import TripTorrent.Research.Metrics
import TripTorrent.Research.Origin
import TripTorrent.Research.Replicas
import TripTorrent.Research.Simulation
import TripTorrent.Research.Topology
import TripTorrent.Research.Traffic
import TripTorrent.Research.Trials
import TripTorrent.Selection.Diverse
import TripTorrent.Selection.Xor
import TripTorrent.Storage.Disk
import TripTorrent.Storage.Keyed
import TripTorrent.Storage.Slots
import TripTorrent.Swarm.Accounting
import TripTorrent.Swarm.Invariant
import TripTorrent.Swarm.Rarest
import TripTorrent.Swarm.Rate
import TripTorrent.Swarm.Scheduler
import TripTorrent.Transfer.Agreement
import TripTorrent.Transfer.Coordinator
import TripTorrent.Transfer.Crash
import TripTorrent.Transfer.GiveUp
import TripTorrent.Transfer.Honest
import TripTorrent.Transfer.Layout
import TripTorrent.Transfer.Manifests
import TripTorrent.Transfer.Publish
import TripTorrent.Transfer.Receiver
import TripTorrent.Transfer.Recovery
import TripTorrent.Transfer.Relayed
import TripTorrent.Transfer.Resume
import TripTorrent.Transfer.Session
import TripTorrent.Transfer.Torn
import TripTorrent.Transfer.Writes
import TripTorrent.Transition.Inevitable
import TripTorrent.Transition.Threads
