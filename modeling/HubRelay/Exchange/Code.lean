import HubRelay.Exchange.Role

/-!
The numbers that a frame header carries: kinds of message and error codes.

Every kind has its own number (`MessageType.ofCode?_code`); an error number without a name reads
as `unspecified` (`ErrorCode.ofCode_code` and `ErrorCode.code_ofCode` say exactly when a number
survives).
-/

namespace HubRelay

/-- The place of an endpoint in the directory. -/
abbrev Handle := UInt8

/-- The number of one request slot of an endpoint. -/
abbrev Command := UInt16

/-- The sequence number that ties a response to its request. -/
abbrev TransactionId := UInt8

/-! ### Kinds of message -/

/-- Who sends a frame and what it asks. -/
inductive MessageType
  | clientRequest
  | serviceResponse
  | clientNotification
  | serviceNotification
  | serviceRequest
  | clientResponse
  deriving DecidableEq, Repr

/-- What a frame asks of its receiver. -/
inductive MessageClass
  | request
  | response
  | notification
  deriving DecidableEq, Repr

def MessageClass.name : MessageClass → String
  | request => "request"
  | response => "response"
  | notification => "notification"

namespace MessageType

def code : MessageType → UInt8
  | clientRequest => 0
  | serviceResponse => 1
  | clientNotification => 2
  | serviceNotification => 3
  | serviceRequest => 4
  | clientResponse => 5

def name : MessageType → String
  | clientRequest => "ClientRequest"
  | serviceResponse => "ServiceResponse"
  | clientNotification => "ClientNotification"
  | serviceNotification => "ServiceNotification"
  | serviceRequest => "ServiceRequest"
  | clientResponse => "ClientResponse"

def all : List MessageType :=
  [clientRequest, serviceResponse, clientNotification, serviceNotification, serviceRequest,
    clientResponse]

def ofCode? (code : UInt8) : Option MessageType :=
  match code with
  | 0 => some clientRequest
  | 1 => some serviceResponse
  | 2 => some clientNotification
  | 3 => some serviceNotification
  | 4 => some serviceRequest
  | 5 => some clientResponse
  | _ => none

/-- The kind of request that an endpoint of this role sends. -/
def requestFrom : Role → MessageType
  | .client => clientRequest
  | .service => serviceRequest

/-- The kind of notification that an endpoint of this role sends. -/
def notificationFrom : Role → MessageType
  | .client => clientNotification
  | .service => serviceNotification

/-- The kind of response that an endpoint of this role gets to its own requests. -/
def responseTo : Role → MessageType
  | .client => serviceResponse
  | .service => clientResponse

/-- The role of the endpoint that handles a frame of this kind. -/
def receiver : MessageType → Role
  | clientRequest | clientNotification | clientResponse => .service
  | serviceRequest | serviceNotification | serviceResponse => .client

/-- The kind of response that answers a request of this kind. -/
def response? : MessageType → Option MessageType
  | clientRequest => some serviceResponse
  | serviceRequest => some clientResponse
  | _ => none

/-- What a frame of this kind asks of its receiver. -/
def messageClass : MessageType → MessageClass
  | clientRequest | serviceRequest => .request
  | serviceResponse | clientResponse => .response
  | clientNotification | serviceNotification => .notification

theorem ofCode?_code (t : MessageType) : ofCode? t.code = some t := by cases t <;> rfl

theorem response?_isSome (t : MessageType) : t.response?.isSome = (t.messageClass == .request) := by
  cases t <;> rfl

/-- A role's requests are handled by the other role, which answers with what the first one gets. -/
theorem response?_requestFrom (role : Role) :
    (requestFrom role).response? = some (responseTo role) := by
  cases role <;> rfl

end MessageType

/-! ### Error codes -/

/-- How a request went. -/
inductive ErrorCode
  | none
  | invalidCommand
  | invalidArg
  | busy
  | outOfMemory
  | unsupported
  | timeout
  | disabled
  | rateLimited
  | blocked
  | invalidLength
  | notReady
  | beyondHub
  | unspecified
  deriving DecidableEq, Repr

namespace ErrorCode

def code : ErrorCode → UInt8
  | .none => 0
  | invalidCommand => 1
  | invalidArg => 2
  | busy => 3
  | outOfMemory => 4
  | unsupported => 5
  | timeout => 6
  | disabled => 7
  | rateLimited => 8
  | blocked => 9
  | invalidLength => 10
  | notReady => 11
  | beyondHub => 12
  | unspecified => 255

/-- The code that a number names; a number without a name counts as `unspecified`. -/
def ofCode (code : UInt8) : ErrorCode :=
  match code with
  | 0 => .none
  | 1 => invalidCommand
  | 2 => invalidArg
  | 3 => busy
  | 4 => outOfMemory
  | 5 => unsupported
  | 6 => timeout
  | 7 => disabled
  | 8 => rateLimited
  | 9 => blocked
  | 10 => invalidLength
  | 11 => notReady
  | 12 => beyondHub
  | _ => unspecified

/-- The name of the code, as error texts show it. -/
def name : ErrorCode → String
  | .none => "None"
  | invalidCommand => "InvalidCommand"
  | invalidArg => "InvalidArg"
  | busy => "Busy"
  | outOfMemory => "OutOfMemory"
  | unsupported => "Unsupported"
  | timeout => "Timeout"
  | disabled => "Disabled"
  | rateLimited => "RateLimited"
  | blocked => "Blocked"
  | invalidLength => "InvalidLength"
  | notReady => "NotReady"
  | beyondHub => "BeyondHub"
  | unspecified => "Unspecified"

def all : List ErrorCode :=
  [.none, invalidCommand, invalidArg, busy, outOfMemory, unsupported, timeout, disabled,
    rateLimited, blocked, invalidLength, notReady, beyondHub, unspecified]

def isOk (e : ErrorCode) : Bool := e == .none

/-- What an endpoint answers to traffic that it has no handler for. -/
def unhandled : ErrorCode := unsupported

theorem ofCode_code (e : ErrorCode) : ofCode e.code = e := by cases e <;> rfl

/-- Only the numbers from 13 to 254 are lost. -/
theorem code_ofCode : ∀ n : UInt8,
    (ofCode n).code = if 13 ≤ n.toNat ∧ n.toNat ≤ 254 then 255 else n := by
  intro n
  obtain ⟨⟨⟨n, h⟩⟩⟩ := n
  revert n
  decide +kernel

end ErrorCode

end HubRelay
