import HubRelay.Exchange.Awaited
import HubRelay.Exchange.Directory
import HubRelay.Exchange.Ledger

/-!
The state of an exchange, and what an operation on it may have to wait for.

An operation runs in segments. A segment changes the state at one instant; it ends with the
outcome of the operation or with an `Activity`: a frame that was offered to the transport, an
endpoint that was called, or a caller that is blocked. While an activity lasts other operations
may run, also such as the transport or the endpoint start themselves. When the answer is there the
operation goes on with its next segment.
-/

namespace HubRelay

/-- How an exchange is set up. -/
structure Settings where
  maxEndpoints : Nat := 16
  requestTimeout : Option Span := some Span.second
  scanInterval : Span := 100 * Span.millisecond
  echo : Bool := false
  workerName : String := "hublink-app"

/-- The state of one exchange. -/
structure Exchange where
  settings : Settings
  directory : Directory
  ledger : Ledger := {}
  awaited : Awaited := {}

/-! ### What operations end with -/

/-- What became of an inbound frame. -/
inductive Disposition
  | delivered (code : ErrorCode)
  | rejected (code : ErrorCode) (response : Option Message)
  | stale
  | dropped
  deriving DecidableEq

/-- What no caller can be told: an instant was needed that no clock can show. The operation comes to
grief, and whoever asked for it does not get an answer. -/
inductive Fault
  | clockOverflow
  deriving DecidableEq

/-- How an operation ended. What is told to callers depends on what they asked for, so every family
of operations has its own form. -/
inductive Outcome
  | sent (result : Except ExchangeError TransactionId)
  | replied (result : Except ExchangeError Message)
  | acknowledged (result : Except ExchangeError Unit)
  | disposed (disposition : Disposition)
  | scanned (count : Nat)
  | announced
  | registered (result : Except ExchangeError Handle)
  | unregistered (found : Bool)
  | aborted (fault : Fault)

/-! ### What operations wait for -/

/-- Why a frame was offered to the transport. It decides how the operation goes on when the
transport has answered. -/
inductive Purpose
  | request (caller : Option (CallId × Span))
  | response
  | notification
  | rejection (code : ErrorCode)
  | errorAnswer (code : ErrorCode)
  | echo (request : Header)

/-- A frame that was offered to the transport. -/
structure Offering where
  message : Message
  purpose : Purpose

def Offering.frame (o : Offering) : Bytes := o.message.encode

/-- What follows when the called endpoint has answered. A scan keeps the requests of which it has
yet to tell. -/
inductive Sequel
  | answerRequest
  | wakeCaller
  | nothing
  | nextLapsed (rest : List Lapsed) (count : Nat)

/-- An endpoint that was called with a message. -/
structure Serving where
  registration : Registration
  message : Message
  sequel : Sequel

/-- What the endpoints are told about the link. -/
inductive Announcement
  | reset
  | established
  deriving DecidableEq

/-- An endpoint that was told about the link, and those still to be told. The list is the one of the
moment when the news came. -/
structure Announcing where
  announcement : Announcement
  registration : Registration
  rest : List Registration

/-- How long a sender puts up with a busy slot or a missing response. -/
inductive Manner
  | once
  | patient (span : Span)
  | awaiting (span : Span)
  deriving DecidableEq

/-- A request to be sent. Its manner is the one thing in which the ways of sending differ once the
timeout is known. -/
structure Order where
  handle : Handle
  command : Command
  payload : Bytes
  timeout : Option Span
  manner : Manner

/-- A sender that waits for its slot, in the role that its endpoint had when it asked. -/
structure SlotWait where
  role : Role
  order : Order
  deadline : Instant

/-- A sender that waits for its response. The second wait follows when the request ended in time
but nothing was handed over yet. -/
structure ReplyWait where
  call : CallId
  key : RequestKey
  span : Span
  deadline : Option Instant
  second : Bool := false

/-- A caller that is blocked. -/
inductive Blocked
  | slot (wait : SlotWait)
  | reply (wait : ReplyWait)

/-- What an operation waits for. -/
inductive Activity
  | offering (o : Offering)
  | serving (s : Serving)
  | announcing (a : Announcing)
  | blocked (b : Blocked)

/-- Where a segment leaves its operation: at its end, or waiting for somebody outside the exchange.
-/
inductive Progress
  | finished (outcome : Outcome)
  | waiting (activity : Activity)

/-- The state after a segment, and where the operation stands. -/
abbrev Segment := Exchange × Progress

namespace Exchange

def finish (x : Exchange) (outcome : Outcome) : Segment := (x, .finished outcome)

def offer (x : Exchange) (message : Message) (purpose : Purpose) : Segment :=
  (x, .waiting (.offering ⟨message, purpose⟩))

def call (x : Exchange) (registration : Registration) (message : Message) (sequel : Sequel) :
    Segment :=
  (x, .waiting (.serving ⟨registration, message, sequel⟩))

/-- Whether a request of this side waits for its response. -/
def isPending (x : Exchange) (handle : Handle) (command : Command) : Bool :=
  x.ledger.isPending handle command

def nextTimeout (x : Exchange) : Option Instant := x.ledger.nextDeadline

end Exchange

end HubRelay
