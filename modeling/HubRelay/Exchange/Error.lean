import HubRelay.Exchange.Code
import HubRelay.Text.SpanText

/-!
Why an operation of an exchange fails, and the wording of each failure.
-/

namespace HubRelay

open Text

/-- The failures that an exchange reports to its callers. -/
inductive ExchangeError
  | truncatedHeader (length : Nat)
  | unknownType (handle : Handle) (code : UInt8)
  | unknownHandle (handle : Handle)
  | unassignable (handle : Handle)
  | handleInUse (handle : Handle)
  | duplicateUuid (uuid : Uuid)
  | directoryFull (capacity : Nat)
  | invalidCommand (handle : Handle) (command : Command) (commands : UInt16)
  | busy (handle : Handle) (command : Command) (transaction : TransactionId)
  | refused (handle : Handle) (command : Command)
  | reset
  | waitTimedOut (span : Span)
  | remote (code : ErrorCode)
  | echoMismatch (sent received : Nat)
  deriving DecidableEq

def ExchangeError.message : ExchangeError → String
  | truncatedHeader length => s!"datagram too short for app header ({length} bytes)"
  | unknownType handle code =>
      "unknown message type " ++ Hex.byte code ++ " on handle " ++ Hex.byte handle
  | unknownHandle handle => "no endpoint registered at handle " ++ Hex.byte handle
  | unassignable handle => "handle " ++ Hex.byte handle ++ " is not assignable"
  | handleInUse handle => "handle " ++ Hex.byte handle ++ " is already registered"
  | duplicateUuid uuid => "capability " ++ uuid.hyphenated ++ " is already registered"
  | directoryFull capacity => s!"endpoint registry full (capacity {capacity})"
  | invalidCommand handle command commands =>
      s!"command {command} out of range for handle " ++ Hex.byte handle ++ s!" ({commands} slots)"
  | busy handle command transaction =>
      "request slot busy (handle " ++ Hex.byte handle ++
        s!", command {command}, transaction {transaction})"
  | refused handle command =>
      "transport rejected datagram for handle " ++ Hex.byte handle ++ s!" command {command}"
  | reset => "link reset while waiting for response"
  | waitTimedOut span => "no response after " ++ ofSpan span
  | remote code => "peer responded with error " ++ code.name
  | echoMismatch sent received =>
      s!"loopback payload mismatch ({sent} bytes sent, {received} bytes echoed)"

end HubRelay
