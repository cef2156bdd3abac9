import HubRelay.Exchange.Operation
import HubRelay.Host.Keeper
import HubRelay.Host.Station
import HubRelay.Link.Event
import HubRelay.Link.Sink
import HubRelay.Logging
import HubRelay.Proofs.Ledger.Arena
import HubRelay.Proofs.Ledger.Pending
import HubRelay.Proofs.Session.Basic
import HubRelay.Proofs.Session.Deed
import HubRelay.Proofs.Session.Moves
import HubRelay.Proofs.Session.Requests
import HubRelay.Proofs.Session.Callers
import HubRelay.Proofs.Session.Answers
import HubRelay.Proofs.Completion
import HubRelay.Proofs.Isolation
import HubRelay.Proofs.Ledger.Received
import HubRelay.Proofs.Answering
import HubRelay.Proofs.Directory
import HubRelay.Proofs.Belonging
import HubRelay.Proofs.Roster.Valid
import HubRelay.Proofs.Switchboard.Basic
import HubRelay.Proofs.Switchboard.Clients
import HubRelay.Proofs.Roster.RoundTrip
import HubRelay.Proofs.Identity
import HubRelay.Proofs.Routing
import HubRelay.Proofs.Linked.Basic
import HubRelay.Proofs.Linked.Dialogue
import HubRelay.Proofs.Linked.Asking
import HubRelay.Proofs.Linked.Answering
import HubRelay.Proofs.Transparency
import HubRelay.Proofs.Link.Scan
import HubRelay.Proofs.Link.Inflow
import HubRelay.Proofs.Link.Writing
import HubRelay.Proofs.Reading
import HubRelay.Proofs.Delivery
import HubRelay.Proofs.Session.Registrations
import HubRelay.Proofs.Session.Mail
import HubRelay.Proofs.Session.Handover
import HubRelay.Proofs.Timeouts
import HubRelay.Proofs.Session.Blocked
import HubRelay.Proofs.Session.Awaiting
import HubRelay.Proofs.Responses
import HubRelay.Proofs.Session.Strands
import HubRelay.Proofs.Frames
import HubRelay.Proofs.Session.Fates
import HubRelay.Proofs.Dispatch
import HubRelay.Proofs.Ownership
import HubRelay.Proofs.Switchboard.Links
import HubRelay.Proofs.Ledger.Accounts
import HubRelay.Proofs.Bookkeeping
import HubRelay.Proofs.Dock.Pieces
import HubRelay.Proofs.Dock.History
import HubRelay.Proofs.Exclusion
import HubRelay.Proofs.Fragments
import HubRelay.Proofs.Station.Counts
import HubRelay.Proofs.Watching
import HubRelay.Proofs.Json.Grammar
import HubRelay.Proofs.Json.Accepting
import HubRelay.Proofs.Json.Deriving
import HubRelay.Proofs.Roster.Spelling
import HubRelay.Proofs.Roster.Records
import HubRelay.Proofs.RosterFiles
import HubRelay.Proofs.Announcing
import HubRelay.Proofs.Ledger.History
import HubRelay.Proofs.Numbering
import HubRelay.Proofs.Expiry
import HubRelay.Proofs.Switchboard.Desk
import HubRelay.Proofs.Refusals
import HubRelay.Proofs.Assigning
import HubRelay.Proofs.Session.Expecting
import HubRelay.Proofs.Session.Alone
import HubRelay.Proofs.Rollback
import HubRelay.Proofs.Durability
import HubRelay.Proofs.Timekeeping
import HubRelay.Proofs.Session.Telling
import HubRelay.Proofs.Session.Waiting
import HubRelay.Proofs.Resetting
