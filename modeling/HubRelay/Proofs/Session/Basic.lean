import HubRelay.Exchange.Operation
import HubRelay.Proofs.Ledger.Pending

/-!
Sessions: one exchange, the operations under way on it, and what has happened to it so far.

A session moves when an operation starts, or when one under way gets the answer that it waits for.
Both may happen at any time and at any instant. So the runs of a session cover whatever a transport
or an endpoint does when it calls back before it answers, and whatever other callers do while one
is blocked. A move is one segment, the stretch in which an operation does not let go.

A segment is one step here. A program that guards directory, slots and callers by locks of their own
lets go of them inside a segment too: between looking up an endpoint and beginning its request, and
between the end of a wait and giving up the request. What others do in such a gap counts as done
before the segment or after it.

The history keeps what every move found and left. Which requests began and ended is read off it by
comparing the two, and how far a scan has come by comparing what it had before it with what it has
then. A handler of the program has been called exactly where a move leaves its operation waiting for
it; only what the exchange's own endpoints take is read off the end of a move, since they answer
within it. Nothing is written down on the side.
-/

namespace HubRelay

/-- Operations are numbered as they start. -/
abbrev OperationId := Nat

/-- The answer to an activity: the transport's, an endpoint's, that an endpoint has taken note, or
that a blocked caller looks again. -/
inductive Reply where
  | transport (accepted : Bool)
  | endpoint (code : ErrorCode)
  | noted
  | woken

/-- What sets off a segment. -/
inductive Turn where
  | begins (operation : Operation)
  | goesOn (activity : Activity) (reply : Reply)

namespace Exchange

/-- The segment that follows the answer to an activity; none when the answer is of another kind. -/
def proceed (x : Exchange) (activity : Activity) (reply : Reply) (now : Instant) :
    Option Segment :=
  match activity, reply with
  | .offering o, .transport accepted => some (x.offered o accepted now)
  | .serving s, .endpoint code => some (x.served s code now)
  | .announcing a, .noted => some (x.told a)
  | .blocked b, .woken => some (x.poll b now)
  | _, _ => none

def turn (x : Exchange) (turn : Turn) (now : Instant) : Option Segment :=
  match turn with
  | .begins operation => some (x.start operation now)
  | .goesOn activity reply => x.proceed activity reply now

end Exchange

/-- The endpoint that an operation is about: the sender of a request, the receiver of a frame. -/
def Operation.handle? : Operation → Option Handle
  | .send handle .. | .sendWithTimeout handle .. | .sendPatiently handle ..
  | .sendAndAwait handle .. => some handle
  | .receive frame => (Message.decode frame).toOption.map (·.header.handle)
  | _ => none

/-! ### Sessions -/

/-- An operation under way. `found` is the registration that stood at its handle when it
started. -/
structure Task where
  id : OperationId
  found : Option Registration
  activity : Activity

/-- What one move found and left: the exchange before it and after it, the instant, what set it off,
and what the operation waits for then. -/
structure Entry where
  operation : OperationId
  found : Option Registration
  turn : Turn
  now : Instant
  before : Exchange
  after : Exchange
  progress : Progress

/-- All moves so far, the last one first. -/
abbrev History := List Entry

structure Session where
  exchange : Exchange
  tasks : List Task := []
  started : OperationId := 0
  history : History := []

inductive Move where
  | start (operation : Operation) (now : Instant)
  | resume (id : OperationId) (reply : Reply) (now : Instant)

namespace Session

/-- The session after a turn of the operation `id`; `others` are the other ones under way. -/
def record (s : Session) (id : OperationId) (found : Option Registration) (turn : Turn)
    (now : Instant) (others : List Task) (segment : Segment) : Session :=
  { s with
    exchange := segment.1
    tasks :=
      match segment.2 with
      | .finished _ => others
      | .waiting activity => ⟨id, found, activity⟩ :: others
    history := ⟨id, found, turn, now, s.exchange, segment.1, segment.2⟩ :: s.history }

def start (s : Session) (operation : Operation) (now : Instant) : Session :=
  { s.record s.started (operation.handle?.bind s.exchange.directory.find?) (.begins operation) now
      s.tasks (s.exchange.start operation now) with
    started := s.started + 1 }

/-- The session after an operation got its answer; none when it waits for another kind. -/
def resume (s : Session) (task : Task) (reply : Reply) (now : Instant) : Option Session :=
  (s.exchange.proceed task.activity reply now).map
    (s.record task.id task.found (.goesOn task.activity reply) now
      (s.tasks.filter (·.id != task.id)))

/-- The session after a move; none when the operation is not under way or waits for another kind
of answer. -/
def step (s : Session) : Move → Option Session
  | .start operation now => some (s.start operation now)
  | .resume id reply now => (s.tasks.find? (·.id == id)).bind (s.resume · reply now)

def run (s : Session) : List Move → Option Session
  | [] => some s
  | move :: moves => (s.step move).bind (·.run moves)

def ofSettings (settings : Settings) : Session := { exchange := .ofSettings settings }

/-- The sessions that runs from a fresh exchange lead to. -/
inductive Reachable (settings : Settings) : Session → Prop where
  | fresh : Reachable settings (ofSettings settings)
  | step {s s' : Session} {move : Move} :
      Reachable settings s → s.step move = some s' → Reachable settings s'

theorem Reachable.run {settings : Settings} {s s' : Session} {moves : List Move}
    (reached : Reachable settings s) (ran : s.run moves = some s') : Reachable settings s' := by
  induction moves generalizing s with
  | nil =>
      obtain rfl := Option.some.inj ran
      exact reached
  | cons move moves ih =>
      obtain ⟨next, stepped, rest⟩ := Option.bind_eq_some_iff.mp ran
      exact ih (reached.step stepped) rest

end Session

/-! ### Requests in the history -/

/-- What ends a request. -/
inductive Ending where
  | matched
  | lapsed
  | gaveUp
  | refused
  | reset
  | unregistered
  | unexplained
  deriving DecidableEq, Repr

/-- What it is that ends requests in a turn of this kind. -/
def Turn.ending : Turn → Ending
  | .begins (.receive _) => .matched
  | .begins (.scan _) => .lapsed
  | .begins .reset => .reset
  | .begins (.unregister _) => .unregistered
  | .goesOn (.offering _) (.transport false) => .refused
  | .goesOn (.offering _) _ | .goesOn (.blocked _) _ => .gaveUp
  | _ => .unexplained

/-- A call of an endpoint's handler for responses: who makes it, whom it goes to, and with which
message. -/
structure Call where
  agent : OperationId
  registration : Registration
  message : Message

/-- Whether it is an endpoint of the program. The move that gets to it calls it, and it answers
later. What its handler does in between is not known here, so any moves may come before it returns.
-/
def Endpoint.isCustom : Endpoint → Bool
  | .custom _ => true
  | .echo | .probe => false

/-- Whether it is an endpoint of the exchange itself, which has answered by the end of the move that
gets to it. -/
def Endpoint.isResident (endpoint : Endpoint) : Bool := !endpoint.isCustom

/-- The message of a frame, with the endpoint of the exchange itself at its handle. -/
def Exchange.residents (x : Exchange) (frame : Bytes) : List (Registration × Message) :=
  match Message.decode frame with
  | .error _ => []
  | .ok m =>
      ((x.directory.find? m.header.handle).filter (·.endpoint.isResident)).toList.map (·, m)

/-- The lapsed requests that an operation has before it. -/
def Activity.lapsed : Activity → List Lapsed
  | .serving ⟨_, _, .nextLapsed rest _⟩ => rest
  | _ => []

/-- The endpoint of the program that an operation waits for after calling it with a response. -/
def Activity.told? : Activity → Option (Registration × Message)
  | .serving ⟨r, m, .wakeCaller⟩ | .serving ⟨r, m, .nextLapsed _ _⟩ => some (r, m)
  | _ => none

namespace Progress

def lapsed : Progress → List Lapsed
  | .finished _ => []
  | .waiting activity => activity.lapsed

def told? : Progress → Option (Registration × Message)
  | .finished _ => none
  | .waiting activity => activity.told?

end Progress

namespace Entry

def ended (e : Entry) : List RequestKey := e.before.ledger.ended e.after.ledger

def begun (e : Entry) : List RequestKey := e.before.ledger.begun e.after.ledger

/-- Whether the slots of `handle` were forgotten. -/
def restarts (e : Entry) (handle : Handle) : Bool :=
  match e.turn, e.progress with
  | .begins .reset, _ => true
  | .begins (.unregister gone), .finished (.unregistered true) => gone == handle
  | _, _ => false

/-- The lapsed requests that a scan has before it when a move of it begins. -/
def lapsed (e : Entry) : List Lapsed :=
  match e.turn with
  | .begins (.scan limit) => (e.before.ledger.takeLapsed limit).1
  | .begins _ => []
  | .goesOn activity _ => activity.lapsed

/-- Whom a move that got to a lapsed request told of it. An endpoint of the program was told if the
move called it with the time-out. -/
def told? (e : Entry) (l : Lapsed) : Option Registration :=
  (e.before.directory.find? l.handle).filter fun r =>
    r.endpoint.isResident || e.progress.told? == some (r, r.timeoutMessage l)

/-- The lapsed requests that a scan got to in a move, each with the registration that was told:
those that it had before it and has not any more. -/
def visits (e : Entry) : List (Lapsed × Option Registration) :=
  (e.lapsed.take (e.lapsed.length - e.progress.lapsed.length)).map fun l => (l, e.told? l)

/-- The response that a frame brought to an endpoint. An endpoint of the program has been called
with it; one of the exchange itself has answered already. -/
def delivery (e : Entry) : List (Registration × Message) :=
  match e.turn, e.progress with
  | .begins (.receive _), .waiting (.serving ⟨r, message, .wakeCaller⟩) => [(r, message)]
  | .begins (.receive frame), .finished (.disposed (.delivered _)) =>
      (e.before.residents frame).filter (·.2.header.type.messageClass == .response)
  | _, _ => []

/-- The ended requests that a move got to, each with the call that tells its endpoint; none for a
handle that nobody holds any more. -/
def reached (e : Entry) : List (RequestKey × Option Call) :=
  e.delivery.map (fun brought =>
      (brought.2.header.key, some ⟨e.operation, brought.1, brought.2⟩)) ++
    e.visits.map fun visit =>
      (visit.1.key, visit.2.map fun r => ⟨e.operation, r, r.timeoutMessage visit.1⟩)

end Entry

namespace History

/-- The requests begun on a slot since it was last forgotten, the last one first. -/
def sent (handle : Handle) (command : Command) : History → List (OperationId × RequestKey)
  | [] => []
  | e :: past =>
      if e.restarts handle then []
      else
        (e.begun.filter fun key => key.handle == handle && key.command == command).map
          (e.operation, ·) ++ sent handle command past

/-- The requests that were begun, each with the operation that began it. -/
def begun : History → List (OperationId × RequestKey)
  | [] => []
  | e :: past => e.begun.map (e.operation, ·) ++ begun past

end History

/-- A request that ended: the move that ended it, and what had happened by then. Who had begun it is
found in the past. -/
structure Ended where
  key : RequestKey
  move : Entry
  past : History

namespace Ended

def agent (e : Ended) : OperationId := e.move.operation

def ending (e : Ended) : Ending := e.move.turn.ending

/-- The requests that had begun on the slot since it was last forgotten, the last one first. -/
def sent (e : Ended) : List (OperationId × RequestKey) :=
  History.sent e.key.handle e.key.command e.past

/-- The operation that began the request. -/
def request (e : Ended) : Option OperationId := e.sent.head?.map Prod.fst

/-- How many requests had begun on the slot after the one of the operation that ended this one. -/
def since (e : Ended) : Nat := (e.sent.takeWhile (·.1 != e.agent)).length

end Ended

namespace History

def ended : History → List Ended
  | [] => []
  | e :: past => e.ended.map (⟨·, e, past⟩) ++ ended past

/-- The ended requests that an operation got to. -/
def reached (agent : OperationId) : History → List (RequestKey × Option Call)
  | [] => []
  | e :: past => (if e.operation = agent then e.reached else []) ++ reached agent past

/-- The calls of handlers for responses. -/
def calls : History → List Call
  | [] => []
  | e :: past => e.reached.filterMap Prod.snd ++ calls past

end History

end HubRelay
