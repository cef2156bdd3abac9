import HubRelay.Exchange.Sending

/-!
Frames that arrive, and requests whose time is over.

A frame reaches the endpoint at its handle only if the endpoint has the role that the kind of
message asks for and the payload is long enough; a response must also belong to the pending
request of its slot. A request that does not get through is answered with the reason. When an
endpoint fails a request without having answered it, the exchange answers for it.
-/

namespace HubRelay

/-- What an endpoint of the exchange itself answers without further ado; none for endpoints of the
program, which are called. The probe takes the responses to its own requests. Whatever else these
endpoints are told they do not handle. -/
def Endpoint.standing? (e : Endpoint) (type : MessageType) : Option ErrorCode :=
  match e, type.messageClass with
  | .custom _, _ => none
  | .probe, .response => some .none
  | _, _ => some .unhandled

namespace Exchange

/-! ### Requests -/

/-- Refuses a frame; the sender of a request is told. Responses and notifications are refused
without a word, so that no refusal is answered by another one. -/
def reject (x : Exchange) (header : Header) (code : ErrorCode) : Segment :=
  match header.response? code with
  | none => x.finish (.disposed (.rejected code none))
  | some response => x.offer ⟨response, []⟩ (.rejection code)

/-- Goes on after an endpoint handled a request: if it failed without an answer, the exchange
answers with the code. Whether it has answered is seen by whether the request is still open, and
closing it comes first, so that nobody else answers in between. -/
def requestServed (x : Exchange) (request : Header) (code : ErrorCode) (now : Instant) : Segment :=
  if code.isOk then x.finish (.disposed (.delivered code))
  else
    match x.ledger.closeIncoming request.handle request.command request.transaction now with
    | none => x.finish (.disposed (.delivered code))
    | some (_, ledger) =>
        match request.response? code with
        | none => { x with ledger }.finish (.disposed (.delivered code))
        | some response => { x with ledger }.offer ⟨response, []⟩ (.errorAnswer code)

/-- Hands a request to its endpoint. The request is open from now on, in place of an earlier one on
its slot that was never answered. The echoing endpoint answers at once. -/
def receiveRequest (x : Exchange) (r : Registration) (request : Message) (now : Instant) :
    Segment :=
  let header := request.header
  if r.descriptor.commands ≤ header.command then x.reject header .invalidCommand
  else
    let x := { x with
      ledger := x.ledger.openIncoming header.handle header.command header.transaction now }
    match r.endpoint with
    | .custom _ => x.call r request .answerRequest
    | .echo => x.offerResponse header .none request.payload (.echo header) now
    | .probe => x.requestServed header .unhandled now

/-! ### Responses and notifications -/

/-- Goes on after an endpoint handled a response: the caller that waits for it is woken, whatever
the endpoint made of it. -/
def responseServed (x : Exchange) (response : Message) (code : ErrorCode) : Segment :=
  { x with awaited := x.awaited.post response }.finish (.disposed (.delivered code))

/-- Hands a response to the endpoint whose pending request it belongs to. The slot is freed before
the endpoint is called, so that it may send its next request from within its handler. -/
def receiveResponse (x : Exchange) (r : Registration) (response : Message) (now : Instant) :
    Segment :=
  let header := response.header
  if r.descriptor.commands ≤ header.command then x.finish (.disposed .stale)
  else
    match x.ledger.complete header.handle header.command header.transaction now with
    | (.matched _, ledger) =>
        let x := { x with ledger }
        match r.endpoint.standing? header.type with
        | none => x.call r response .wakeCaller
        | some code => x.responseServed response code
    | _ => x.finish (.disposed .stale)

def receiveNotification (x : Exchange) (r : Registration) (notification : Message) : Segment :=
  match r.endpoint.standing? notification.header.type with
  | none => x.call r notification .nothing
  | some code => x.finish (.disposed (.delivered code))

/-! ### All frames -/

/-- Whether the payload is long enough for the endpoint. A response that reports an error needs
none. -/
def longEnough (r : Registration) (m : Message) : Bool :=
  (m.header.type.messageClass == .response && !m.header.error.isOk) ||
    r.descriptor.minPayload ≤ m.payload.length

/-- Takes an inbound frame to the endpoint at its handle. The checks come in this order: the length
of the header, the kind of message, the handle, the role, the length of the payload, and then those
of the kind. The first that fails decides about the refusal. -/
def receive (x : Exchange) (frame : Bytes) (now : Instant) : Segment :=
  match Message.decode frame with
  | .error (.truncatedHeader _) => x.finish (.disposed .dropped)
  | .error _ => x.finish (.disposed (.rejected .invalidCommand none))
  | .ok message =>
      match x.directory.find? message.header.handle with
      | none => x.reject message.header .invalidArg
      | some r =>
          if r.descriptor.role ≠ message.header.type.receiver then
            x.reject message.header .invalidArg
          else if !longEnough r message then x.reject message.header .invalidArg
          else
            match message.header.type.messageClass with
            | .request => x.receiveRequest r message now
            | .response => x.receiveResponse r message now
            | .notification => x.receiveNotification r message

/-! ### Requests whose time is over -/

/-- Tells the endpoints of lapsed requests, one after the other, that no response came. `count`
requests have lapsed in all. The handle is looked up when it is the turn of a request, so what an
endpoint does when it is called may concern those that are still to be told. -/
def tellLapsed (x : Exchange) (count : Nat) : List Lapsed → Segment
  | [] => x.finish (.scanned count)
  | lapsed :: rest =>
      match x.directory.find? lapsed.handle with
      | none => x.tellLapsed count rest
      | some r =>
          let message := r.timeoutMessage lapsed
          match r.endpoint.standing? message.header.type with
          | none => x.call r message (.nextLapsed rest count)
          | some _ => { x with awaited := x.awaited.post message }.tellLapsed count rest

/-- Ends every request whose deadline is at or before `limit`. All of them are ended before the
first endpoint is told. -/
def scan (x : Exchange) (limit : Instant) : Segment :=
  let (lapsed, ledger) := x.ledger.takeLapsed limit
  { x with ledger }.tellLapsed lapsed.length lapsed

end Exchange

end HubRelay
