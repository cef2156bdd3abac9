import HubRelay.Host.ClientId
import HubRelay.Uuid

/-!
The failures of the host side and their wording.
-/

namespace HubRelay

/-- What a transaction does. -/
inductive TransactionKind
  | load
  | unload
  deriving DecidableEq, Repr

def TransactionKind.name : TransactionKind → String
  | .load => "Load"
  | .unload => "Unload"

abbrev TransactionNumber := UInt32

/-- The failures that the host side reports to its callers. -/
inductive HostError
  | unknownPid (pid : Pid)
  | idsExhausted (capacity : Nat)
  | linkFailed (pid : Pid)
  | notPersisted (path : String)
  | endpointOutOfRange (client : ClientId) (endpoint limit : EndpointId)
  | endpointNotRegistered (pid : Pid) (endpoint : EndpointId)
  | transactionPending (kind : TransactionKind) (transaction : TransactionNumber)
      (client : ClientId)
  | uuidConflict (uuid : Uuid) (client : ClientId)
  deriving DecidableEq

def HostError.message : HostError → String
  | unknownPid pid => s!"no client registered for pid {pid}"
  | idsExhausted capacity => s!"client ids exhausted ({capacity} clients)"
  | linkFailed pid => s!"failed to link liveness monitor for pid {pid}"
  | notPersisted path => "failed to persist client mapping to " ++ path
  | endpointOutOfRange client endpoint limit =>
      "endpoint id " ++ Text.Hex.word endpoint ++ s!" out of range for client {client} (limit " ++
        Text.Hex.word limit ++ ")"
  | endpointNotRegistered pid endpoint =>
      "endpoint id " ++ Text.Hex.word endpoint ++ s!" not registered by pid {pid}"
  | transactionPending kind transaction client =>
      kind.name ++ s!" transaction {transaction} from client {client} still pending"
  | uuidConflict uuid client =>
      "uuid " ++ uuid.hyphenated ++ s!" already mapped to client id {client}"

end HubRelay
