import HubRelay.Exchange.Registering

/-!
Requests, notifications and responses on their way out, and the callers that wait for what comes
back.

A request takes its slot before its frame is offered. If the transport refuses the frame the slot
is freed again, unless the request has ended by then. A caller that awaits its response ends its
own request when its time is over; if the request ended before, it waits once more for the
response to be handed over.
-/

namespace HubRelay

/-- The response that stands for one that never came. It bears the number of the request and no
payload, so endpoints can treat it like any other. -/
def Registration.timeoutMessage (r : Registration) (lapsed : Lapsed) : Message :=
  { header :=
      { handle := lapsed.handle, type := .responseTo r.descriptor.role
        transaction := lapsed.transaction, error := .timeout, command := lapsed.command }
    payload := [] }

/-- How an order that cannot be carried out ends. -/
def Order.fail (order : Order) (error : ExchangeError) : Outcome :=
  match order.manner with
  | .awaiting _ => .replied (.error error)
  | _ => .sent (.error error)

/-- Whether the deadline has come; without one it never does. -/
def hasCome (deadline : Option Instant) (now : Instant) : Bool := deadline.any (· ≤ now)

namespace Exchange

/-! ### Waiting for a response -/

/-- Looks whether something was handed over to a caller that waits for the second time. Its request
has ended by then, so all it can do when this wait is over too is to leave. -/
def pollHandOver (x : Exchange) (wait : ReplyWait) (now : Instant) : Segment :=
  match x.awaited.mailFor wait.call with
  | .delivered message =>
      { x with awaited := x.awaited.forget wait.call }.finish (.replied (.ok message))
  | .released => { x with awaited := x.awaited.forget wait.call }.finish (.replied (.error .reset))
  | .nothing =>
      if hasCome wait.deadline now then
        { x with awaited := (x.awaited.release wait.key).forget wait.call }.finish
          (.replied (.error (.waitTimedOut wait.span)))
      else (x, .waiting (.blocked (.reply wait)))

/-- The response of a caller whose own request just ran out of time. -/
def timeoutReply (x : Exchange) (lapsed : Lapsed) : Except ExchangeError Message :=
  match x.directory.find? lapsed.handle with
  | none => .error (.unknownHandle lapsed.handle)
  | some r => .ok (r.timeoutMessage lapsed)

/-- Looks whether a caller's wait for its response is over. Mail comes before time: a response that
was handed over is returned even if the time is over as well. If the request has ended without mail,
an endpoint is still being told of the response, and the caller waits once more for as long as
before. -/
def pollReply (x : Exchange) (wait : ReplyWait) (now : Instant) : Segment :=
  match x.awaited.mailFor wait.call with
  | .delivered message =>
      { x with awaited := x.awaited.forget wait.call }.finish (.replied (.ok message))
  | .released => { x with awaited := x.awaited.forget wait.call }.finish (.replied (.error .reset))
  | .nothing =>
      if wait.second then x.pollHandOver wait now
      else if hasCome wait.deadline now then
        match x.ledger.expire wait.key.handle wait.key.command wait.key.transaction with
        | some (lapsed, ledger) =>
            let x := { x with
              ledger, awaited := (x.awaited.release wait.key).forget wait.call }
            x.finish (.replied (x.timeoutReply lapsed))
        | none =>
            x.pollHandOver { wait with deadline := now.after? wait.span, second := true } now
      else (x, .waiting (.blocked (.reply wait)))

/-! ### Requests -/

/-- Takes the slot and offers the request; `role` is that of the sender. A caller that awaits the
response stands in the table before the frame is offered, since the response may be there before the
transport has returned. -/
def beginRequest (x : Exchange) (role : Role) (order : Order) (now : Instant) : Segment :=
  match x.ledger.begin order.handle order.command order.timeout now with
  | .error transaction => x.finish (order.fail (.busy order.handle order.command transaction))
  | .ok (transaction, ledger) =>
      let header : Header :=
        { handle := order.handle, type := .requestFrom role, transaction, error := .none
          command := order.command }
      let message : Message := ⟨header, order.payload⟩
      match order.manner with
      | .awaiting span =>
          let (call, awaited) := x.awaited.enlist header.key
          { x with ledger, awaited }.offer message (.request (some (call, span)))
      | _ => { x with ledger }.offer message (.request none)

/-- Looks whether a sender still has to wait for its slot. When its time is over it tries all the
same, and is told that the slot is busy. -/
def pollSlot (x : Exchange) (wait : SlotWait) (now : Instant) : Segment :=
  if x.isPending wait.order.handle wait.order.command && now < wait.deadline then
    (x, .waiting (.blocked (.slot wait)))
  else x.beginRequest wait.role wait.order now

/-- Checks an order and carries it out as far as possible. The end of a patient sender's wait is
reckoned even if the slot is free. -/
def place (x : Exchange) (order : Order) (now : Instant) : Segment :=
  match x.directory.find? order.handle with
  | none => x.finish (order.fail (.unknownHandle order.handle))
  | some r =>
      let commands := r.descriptor.commands
      if commands ≤ order.command then
        x.finish (order.fail (.invalidCommand order.handle order.command commands))
      else
        match order.manner with
        | .patient span =>
            match now.after? span with
            | none => x.finish (.aborted .clockOverflow)
            | some deadline => x.pollSlot ⟨r.descriptor.role, order, deadline⟩ now
        | _ => x.beginRequest r.descriptor.role order now

/-- The timeout of an endpoint's requests when the sender gives none: its own, or that of the
settings. Both may be missing, and then requests wait without limit. -/
def requestTimeout (x : Exchange) (handle : Handle) : Except ExchangeError (Option Span) :=
  match x.directory.find? handle with
  | none => .error (.unknownHandle handle)
  | some r => .ok (r.descriptor.timeout.or x.settings.requestTimeout)

/-- Sends a request with the endpoint's own timeout, or with the one of the settings. -/
def send (x : Exchange) (handle : Handle) (command : Command) (payload : Bytes) (now : Instant) :
    Segment :=
  match x.requestTimeout handle with
  | .error error => x.finish (.sent (.error error))
  | .ok timeout => x.place ⟨handle, command, payload, timeout, .once⟩ now

/-- Sends a request with the given timeout, or with none. -/
def sendWithTimeout (x : Exchange) (handle : Handle) (command : Command) (payload : Bytes)
    (timeout : Option Span) (now : Instant) : Segment :=
  x.place ⟨handle, command, payload, timeout, .once⟩ now

/-- Sends a request, waiting up to `patience` for a busy slot. -/
def sendPatiently (x : Exchange) (handle : Handle) (command : Command) (payload : Bytes)
    (patience : Span) (now : Instant) : Segment :=
  match x.requestTimeout handle with
  | .error error => x.finish (.sent (.error error))
  | .ok timeout => x.place ⟨handle, command, payload, timeout, .patient patience⟩ now

/-- Sends a request and blocks until the response comes. The time that the caller gives is also the
timeout of the request. -/
def sendAndAwait (x : Exchange) (handle : Handle) (command : Command) (payload : Bytes)
    (timeout : Span) (now : Instant) : Segment :=
  x.place ⟨handle, command, payload, some timeout, .awaiting timeout⟩ now

/-- Goes on after a request was accepted: a caller that awaits the response begins to wait, from
this instant on. Everyone else is told the number of the request. -/
def requestAccepted (x : Exchange) (request : Header) (caller : Option (CallId × Span))
    (now : Instant) : Segment :=
  match caller with
  | none => x.finish (.sent (.ok request.transaction))
  | some (call, span) => x.pollReply ⟨call, request.key, span, now.after? span, false⟩ now

/-- Goes on after a request was refused: it is taken back, unless it has ended already. In that case
the refusal comes too late to matter, and the operation goes on as if there had been none. -/
def requestRefused (x : Exchange) (request : Header) (caller : Option (CallId × Span))
    (now : Instant) : Segment :=
  match x.ledger.abort request.handle request.command request.transaction with
  | none => x.requestAccepted request caller now
  | some ledger =>
      let awaited := x.awaited.release request.key
      let error := ExchangeError.refused request.handle request.command
      match caller with
      | none => { x with ledger, awaited }.finish (.sent (.error error))
      | some (call, _) =>
          { x with ledger, awaited := awaited.forget call }.finish (.replied (.error error))

/-! ### Responses and notifications -/

/-- Marks a request as answered and offers the response to the transport. The mark is not taken back
if the transport refuses. -/
def offerResponse (x : Exchange) (request : Header) (error : ErrorCode) (payload : Bytes)
    (purpose : Purpose) (now : Instant) : Segment :=
  let x :=
    match x.ledger.closeIncoming request.handle request.command request.transaction now with
    | some (_, ledger) => { x with ledger }
    | none => x
  match request.response? error with
  | none =>
      x.finish (.acknowledged (.error (.unknownType request.handle request.type.code)))
  | some header => x.offer ⟨header, payload⟩ purpose

def respond (x : Exchange) (request : Header) (error : ErrorCode) (payload : Bytes)
    (now : Instant) : Segment :=
  x.offerResponse request error payload .response now

/-- Sends a notification from an endpoint, which has to be registered. Notifications have no slot,
and their number is always zero. -/
def notify (x : Exchange) (handle : Handle) (command : Command) (payload : Bytes) : Segment :=
  match x.directory.find? handle with
  | none => x.finish (.acknowledged (.error (.unknownHandle handle)))
  | some r =>
      x.offer
        { header :=
            { handle, type := .notificationFrom r.descriptor.role, transaction := 0
              error := .none, command }
          payload } .notification

/-- The outcome of a response or notification that the transport has seen. -/
def acknowledge (header : Header) (accepted : Bool) : Outcome :=
  .acknowledged
    (if accepted then .ok () else .error (.refused header.handle header.command))

end Exchange

end HubRelay
