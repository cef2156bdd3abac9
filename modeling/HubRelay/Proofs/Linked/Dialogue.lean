import HubRelay.Proofs.Linked.Basic
import HubRelay.Proofs.Session.Callers

/-!
A request and its answer between two exchanges on a link.

`Dialogue` says who asks whom, and for what. From there on everything may happen in any order that
belongs to the dialogue: workers take what is there, the link carries frames, operations go on when
their answers are there, and the asked endpoint answers once, be it with a response or by failing.
Operations that were under way before stay as they are, nobody loses patience, and workers scan
only while nothing is due.
-/

namespace HubRelay

/-- What an endpoint of the exchange itself answers to a request; the program's endpoints answer
what they like. -/
def Endpoint.Answers (e : Endpoint) (payload : Bytes) (error : ErrorCode) (answer : Bytes) : Prop :=
  match e with
  | .custom _ => True
  | .echo => error = .none ∧ answer = payload
  | .probe => error = .unhandled ∧ answer = []

/-- Two sessions that are put on a link, a request that one of them is to send, and its answer. The
endpoints at the handle of the request have opposite roles and know the command, and its slot is
idle. What is sent is long enough for who is to get it. A sender that waits gives it some time. -/
structure Dialogue where
  /-- Both exchanges are in states that runs lead to. -/
  settings : Side → Settings
  session : Side → Session
  reachable : ∀ side, Session.Reachable (settings side) (session side)
  /-- The link is up, with one exchange at each end. -/
  link : JoinedLink Side
  up : link.up = true
  attached : ∀ side, link.listener side = some side
  /-- One side sends a request. -/
  side : Side
  operation : Operation
  order : Order
  ordered : operation.order? (session side).exchange = some order
  now : Instant
  /-- The instants up to which its caller may wait exist, and it does not give up at once. -/
  patience : ∀ span, order.manner = .patient span → ∃ deadline, now.after? span = some deadline
  wait : ∀ span, order.manner = .awaiting span → 0 < span
  /-- An endpoint stands at the handle on the sender's side, and has the command. -/
  asker : Registration
  askerFound : (session side).exchange.directory.find? order.handle = some asker
  askerCommand : order.command < asker.descriptor.commands
  /-- One of the opposite role stands there on the other side, and has the command too. -/
  answerer : Registration
  answererFound : (session side.opposite).exchange.directory.find? order.handle = some answerer
  answererCommand : order.command < answerer.descriptor.commands
  opposite : answerer.descriptor.role ≠ asker.descriptor.role
  /-- Nothing is pending on the slot. -/
  idle : ((session side).exchange.ledger.slotAt order.handle order.command).outgoing.pending = false
  /-- The request is long enough for its receiver. -/
  long : answerer.descriptor.minPayload ≤ order.payload.length
  /-- The answer that is to be given, long enough for its receiver or an error. -/
  error : ErrorCode
  answer : Bytes
  answerable : error ≠ .none ∨ asker.descriptor.minPayload ≤ answer.length
  /-- The echo service and the probe give an answer of their own. -/
  own : answerer.endpoint.Answers order.payload error answer

namespace Dialogue

variable (d : Dialogue)

/-! ### What is said -/

def exchange : Exchange := (d.session d.side).exchange

def transaction : TransactionId :=
  (d.exchange.ledger.slotAt d.order.handle d.order.command).nextTransaction

def request : Message := d.order.request d.asker.descriptor.role d.transaction

def response : Message :=
  { header :=
      { handle := d.order.handle, type := .responseTo d.asker.descriptor.role
        transaction := d.transaction, error := d.error, command := d.order.command }
    payload := d.answer }

def key : RequestKey := ⟨d.order.handle, d.order.command, d.transaction⟩

def outcome : Outcome :=
  match d.order.manner with
  | .awaiting _ => .replied (.ok d.response)
  | _ => .sent (.ok d.transaction)

theorem response?_request : d.request.header.response? d.error = some d.response.header := by
  simp [Header.response?, request, Order.request, response, MessageType.response?_requestFrom]

theorem request_asks : d.request.header.type.messageClass = .request := by
  show (MessageType.requestFrom d.asker.descriptor.role).messageClass = .request
  cases d.asker.descriptor.role <;> rfl

theorem response_answers : d.response.header.type.messageClass = .response := by
  show (MessageType.responseTo d.asker.descriptor.role).messageClass = .response
  cases d.asker.descriptor.role <;> rfl

/-- The request gets through to the endpoint that is asked. -/
theorem request_arrives {x : Exchange}
    (directory : x.directory = (d.session d.side.opposite).exchange.directory) :
    Arrives x d.request.encode d.answerer d.request where
  decoded := Message.decode_encode _
  found := by rw [directory]; exact d.answererFound
  role := by
    have opposite := d.opposite
    show _ = (MessageType.requestFrom d.asker.descriptor.role).receiver
    revert opposite
    cases d.answerer.descriptor.role <;> cases d.asker.descriptor.role <;> decide
  long := by
    rw [Exchange.longEnough, Bool.or_eq_true]
    exact .inr (decide_eq_true d.long)
  command := d.answererCommand

/-- The response gets through to the endpoint that asked. -/
theorem response_arrives {x : Exchange} (directory : x.directory = d.exchange.directory) :
    Arrives x d.response.encode d.asker d.response where
  decoded := Message.decode_encode _
  found := by rw [directory]; exact d.askerFound
  role := by
    show _ = (MessageType.responseTo d.asker.descriptor.role).receiver
    cases d.asker.descriptor.role <;> rfl
  long := by
    rw [Exchange.longEnough, response_answers, Bool.or_eq_true]
    rcases d.answerable with failed | long
    · refine .inl ?_
      show (true && !(d.error == .none)) = true
      simpa using failed
    · exact .inr (decide_eq_true long)
  command := d.askerCommand

/-! ### How the request is sent -/

/-- The ledger of the asking side once the request has begun. -/
def ledger : Ledger :=
  d.exchange.ledger.withRequest d.order.handle d.order.command d.order.timeout d.now

/-- The caller that waits for the response, and how long it does. -/
def caller : Option (CallId × Span) :=
  match d.order.manner with
  | .awaiting span => some (d.exchange.awaited.calls, span)
  | _ => none

/-- The table of callers once the request has begun. -/
def awaited : Awaited :=
  match d.order.manner with
  | .awaiting _ => (d.exchange.awaited.enlist d.key).2
  | _ => d.exchange.awaited

/-- The asking exchange once the request has begun. -/
def asking : Exchange := { d.exchange with ledger := d.ledger, awaited := d.awaited }

theorem start_operation :
    d.exchange.start d.operation d.now =
      (d.asking, .waiting (.offering ⟨d.request, .request d.caller⟩)) := by
  exact Exchange.start_of_idle ⟨d.ordered, d.askerFound, d.askerCommand⟩ d.idle d.patience

theorem mailFor_awaited {call : CallId} {span : Span} (caller : d.caller = some (call, span)) :
    d.awaited.mailFor call = .nothing := by
  unfold Dialogue.caller at caller
  unfold awaited
  cases manner : d.order.manner with
  | awaiting span' =>
      simp only [manner] at caller ⊢
      obtain ⟨rfl, -⟩ := Prod.mk.inj (Option.some.inj caller)
      exact (d.reachable d.side).numbered.mailFor_enlist d.key
  | once | patient => simp [manner] at caller

theorem mailFor_post {call : CallId} {span : Span} (caller : d.caller = some (call, span)) :
    (d.awaited.post d.response).mailFor call = .delivered d.response := by
  unfold Dialogue.caller at caller
  unfold awaited
  cases manner : d.order.manner with
  | awaiting span' =>
      simp only [manner] at caller ⊢
      obtain ⟨rfl, -⟩ := Prod.mk.inj (Option.some.inj caller)
      exact (d.reachable d.side).numbered.mailFor_post_enlist d.response
  | once | patient => simp [manner] at caller

/-! ### How the dialogue goes on -/

/-- The operations of the dialogue at either end are numbered from here on. -/
def first (side : Side) : OperationId := (d.session side).started

/-- The calls of handlers at one end since the dialogue began, the last one first. -/
def handled (j : Linked) (side : Side) : List (Registration × Message) :=
  ((j.port side).session.history.since (d.first side)).handled

/-- The request has been offered, and nothing else has happened. -/
def opened : Linked :=
  (Linked.join d.link d.session).set d.side
    { session := (d.session d.side).start d.operation d.now }

/-- A caller that looks again does not give up: what it waits for is there, or there is time
left. -/
def Patient (s : Session) (id : OperationId) (now : Instant) : Prop :=
  ∀ task ∈ s.tasks, task.id = id → ∀ wait, task.activity = .blocked (.reply wait) →
    s.exchange.awaited.mailFor wait.call ≠ .nothing ∨ hasCome wait.deadline now = false

/-- The moves that belong to the dialogue. The flag says whether the program still has to answer. A
worker takes what is in its queue, the link carries what is on offer, operations go on, and the
program answers when it likes; resets, unregistrations and other requests are left out. -/
inductive Allows (j : Linked) : Bool → LinkedMove → Bool → Prop where
  | takes {due : Bool} {side : Side} {now : Instant} : Allows j due (.take side now) due
  | carries {due : Bool} {side : Side} {id : OperationId} :
      d.first side ≤ id → Allows j due (.carry side id) due
  | hears {due : Bool} {side : Side} {id : OperationId} {accepted : Bool} {now : Instant} :
      d.first side ≤ id → Allows j due (.resume side id (.transport accepted) now) due
  | scans {due : Bool} {side : Side} {limit now : Instant} :
      ((j.port side).session.exchange.ledger.takeLapsed limit).1 = [] →
      Allows j due (.start side (.scan limit) now) due
  | wakes {due : Bool} {side : Side} {id : OperationId} {now : Instant} :
      d.first side ≤ id → Patient (j.port side).session id now →
      Allows j due (.resume side id .woken now) due
  | returns {due : Bool} {side : Side} {id : OperationId} {code : ErrorCode} {now : Instant} :
      d.first side ≤ id → (due = true → side = d.side.opposite → code = .none) →
      Allows j due (.resume side id (.endpoint code) now) due
  | fails {id : OperationId} {now : Instant} :
      d.first d.side.opposite ≤ id → d.error ≠ .none → d.answer = [] →
      Allows j true (.resume d.side.opposite id (.endpoint d.error) now) false
  | responds {now : Instant} :
      d.handled j d.side.opposite ≠ [] →
      Allows j true (.start d.side.opposite (.respond d.request.header d.error d.answer) now) false

/-- The dialogue goes on from one state to another. -/
inductive Leads (due : Bool) (j : Linked) : Bool → Linked → Prop where
  | refl : Leads due j due j
  | step {due' due'' : Bool} {j' j'' : Linked} {move : LinkedMove} :
      Leads due j due' j' → d.Allows j' due' move due'' → j'.step move = some j'' →
      Leads due j due'' j''

/-- The states that the dialogue comes to. -/
def Reaches (due : Bool) (j : Linked) : Prop :=
  d.Leads d.answerer.endpoint.isCustom d.opened due j

/-- Nothing is left to be taken or carried. Operations may still wait, for an endpoint that has not
returned or for a caller that has not looked. -/
def Drained (j : Linked) : Prop :=
  ∀ side, (j.port side).queue = [] ∧ ∀ id, d.first side ≤ id → (j.port side).offering? id = none

end Dialogue

end HubRelay
