import HubRelay.Exchange.Arrival
import HubRelay.Link.Event

/-!
Every operation of an exchange, how it starts, and how it goes on when what it waited for is
there.
-/

namespace HubRelay

namespace Exchange

/-! ### News about the link -/

/-- Tells the endpoints about the link, one after the other. Whom to tell is fixed when the news
comes; an endpoint that goes in the meantime is told all the same. -/
def announce (x : Exchange) (announcement : Announcement) : List Registration → Segment
  | [] => x.finish .announced
  | r :: rest => (x, .waiting (.announcing ⟨announcement, r, rest⟩))

/-- The link was reset: every request is forgotten, every caller is released, and the endpoints
registered at this moment are told. Forgetting comes first, so endpoints that are told find blank
slots. -/
def reset (x : Exchange) : Segment :=
  { x with ledger := .empty, awaited := x.awaited.releaseAll }.announce .reset x.directory.entries

/-- The link carries frames again: the endpoints registered at this moment are told. -/
def establish (x : Exchange) : Segment := x.announce .established x.directory.entries

/-! ### Going on -/

/-- The transport has accepted or refused the frame. -/
def offered (x : Exchange) (o : Offering) (accepted : Bool) (now : Instant) : Segment :=
  let header := o.message.header
  match o.purpose with
  | .request caller =>
      if accepted then x.requestAccepted header caller now else x.requestRefused header caller now
  | .response | .notification => x.finish (acknowledge header accepted)
  | .rejection code => x.finish (.disposed (.rejected code (some o.message)))
  | .errorAnswer code => x.finish (.disposed (.delivered code))
  | .echo request => x.requestServed request (if accepted then .none else .unspecified) now

/-- Goes on after an endpoint was called, by what it was called for. The code that it returns
matters for requests only. -/
def served (x : Exchange) (s : Serving) (code : ErrorCode) (now : Instant) : Segment :=
  match s.sequel with
  | .answerRequest => x.requestServed s.message.header code now
  | .wakeCaller => x.responseServed s.message code
  | .nothing => x.finish (.disposed (.delivered code))
  | .nextLapsed rest count =>
      { x with awaited := x.awaited.post s.message }.tellLapsed count rest

def told (x : Exchange) (a : Announcing) : Segment := x.announce a.announcement a.rest

def poll (x : Exchange) (b : Blocked) (now : Instant) : Segment :=
  match b with
  | .slot wait => x.pollSlot wait now
  | .reply wait => x.pollReply wait now

end Exchange

/-- When a blocked caller stops waiting of its own accord. -/
def Blocked.deadline : Blocked → Option Instant
  | .slot wait => some wait.deadline
  | .reply wait => wait.deadline

/-! ### Operations -/

/-- What can be asked of an exchange. Endpoints may ask for it while they are called, and a
transport while a frame is offered to it. -/
inductive Operation
  | register (descriptor : Descriptor) (endpoint : Endpoint)
  | registerAt (handle : Handle) (descriptor : Descriptor) (endpoint : Endpoint)
  | unregister (handle : Handle)
  | send (handle : Handle) (command : Command) (payload : Bytes)
  | sendWithTimeout (handle : Handle) (command : Command) (payload : Bytes)
      (timeout : Option Span)
  | sendPatiently (handle : Handle) (command : Command) (payload : Bytes) (patience : Span)
  | sendAndAwait (handle : Handle) (command : Command) (payload : Bytes) (timeout : Span)
  | respond (request : Header) (error : ErrorCode) (payload : Bytes)
  | notify (handle : Handle) (command : Command) (payload : Bytes)
  | receive (frame : Bytes)
  | scan (limit : Instant)
  | reset
  | establish

/-- The first segment of an operation. -/
def Exchange.start (x : Exchange) (operation : Operation) (now : Instant) : Segment :=
  match operation with
  | .register descriptor endpoint =>
      let (x, result) := x.register descriptor endpoint
      x.finish (.registered result)
  | .registerAt handle descriptor endpoint =>
      let (x, result) := x.registerAt handle descriptor endpoint
      x.finish (.registered result)
  | .unregister handle =>
      let (x, found) := x.unregister handle
      x.finish (.unregistered found)
  | .send handle command payload => x.send handle command payload now
  | .sendWithTimeout handle command payload timeout =>
      x.sendWithTimeout handle command payload timeout now
  | .sendPatiently handle command payload patience =>
      x.sendPatiently handle command payload patience now
  | .sendAndAwait handle command payload timeout =>
      x.sendAndAwait handle command payload timeout now
  | .respond request error payload => x.respond request error payload now
  | .notify handle command payload => x.notify handle command payload
  | .receive frame => x.receive frame now
  | .scan limit => x.scan limit
  | .reset => x.reset
  | .establish => x.establish

/-! ### Probing the peer -/

/-- What the response to an echoed request says about the way there and back. An error that the peer
reports is looked at before the payload. -/
def Echo.verdict (payload : Bytes) (reply : Except ExchangeError Message) :
    Except ExchangeError Unit :=
  match reply with
  | .error error => .error error
  | .ok response =>
      if !response.header.error.isOk then .error (.remote response.header.error)
      else if response.payload ≠ payload then
        .error (.echoMismatch payload.length response.payload.length)
      else .ok ()

/-! ### The worker -/

/-- What the worker of an exchange is handed. -/
inductive WorkItem
  | frame (bytes : Bytes)
  | reset
  | established
  | shutdown
  deriving DecidableEq

def WorkItem.ofEvent : LinkEvent → WorkItem
  | .frame bytes => .frame bytes
  | .reset => .reset
  | .established => .established

/-- The operation that an item calls for; none for the end of work. -/
def WorkItem.operation? : WorkItem → Option Operation
  | .frame bytes => some (.receive bytes)
  | .reset => some .reset
  | .established => some .establish
  | .shutdown => none

/-- How long an idle worker sleeps: until the next deadline, but no longer than the interval. It
does not sleep at all when a deadline has passed. -/
def idleSpan (interval : Span) (nextTimeout : Option Instant) (now : Instant) : Span :=
  match nextTimeout with
  | none => interval
  | some deadline => min (deadline - now) interval

/-- What a worker does in one round. -/
inductive WorkRound
  | perform (operation : Operation)
  | sleep
  | stop

namespace WorkRound

/-- The round that takes the first item of the queue, and the items left. An empty queue lets the
worker sleep; the item that ends its work is not followed by a scan. -/
def next : List WorkItem → WorkRound × List WorkItem
  | [] => (.sleep, [])
  | item :: rest => ((item.operation?.map .perform).getD .stop, rest)

/-- The operations of a round, one after the other, each for the instant at which it starts. Every
round but the last ends with a scan for requests whose time is over by then. -/
def operations : WorkRound → List (Instant → Operation)
  | .perform operation => [fun _ => operation, .scan]
  | .sleep => [.scan]
  | .stop => []

end WorkRound

end HubRelay
