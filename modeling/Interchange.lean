import Interchange.Client.Interleaving
import Interchange.Dispatch.Script
import Interchange.Mti.Name
import Interchange.Offline
import Interchange.Outbound.Bench
import Interchange.Outbound.Senders
import Interchange.Proofs.Delivery
import Interchange.Session.Peer
import Interchange.Settings.Document
import Interchange.Proofs.Connector.Changes
import Interchange.Proofs.Connector.Lifecycle
import Interchange.Proofs.Client.Slot
import Interchange.Proofs.Client.Reconnecting
import Interchange.Proofs.Client.Disconnect
import Interchange.Proofs.Outbound.Unframed
import Interchange.Proofs.Outbound.Ending
import Interchange.Proofs.Pack.Truncation
import Interchange.Proofs.Connector.Serving
import Interchange.Proofs.Connector.Inbound
import Interchange.Proofs.Connector.Outflow
import Interchange.Proofs.Connector.Strides
import Interchange.Proofs.Connector.Draining
import Interchange.Proofs.Session.InTime
import Interchange.Proofs.Frame.LengthField
import Interchange.Proofs.Server.Bookkeeping
import Interchange.Proofs.Connector.Heartbeats
import Interchange.Proofs.Session.Isolation
import Interchange.Proofs.Session.Heartbeats
import Interchange.Proofs.Client.Controller
import Interchange.Proofs.Journal.Masking
import Interchange.Dispatch.Roster
import Interchange.Proofs.Dispatch.Roster
import Interchange.Proofs.Dispatch.Walk
import Interchange.Proofs.Client.Delay
import Interchange.Proofs.Outbound.Resuming
import Interchange.Proofs.Outbound.Senders
import Interchange.Proofs.Outbound.Counting
import Interchange.Proofs.Outbound.Stranding
import Interchange.Proofs.Exchange.Echoes
import Interchange.Proofs.Frame.Lifetime
import Interchange.Proofs.Settings.Documents
import Interchange.Proofs.Connector.Refusals
import Interchange.Proofs.Pack.Order
