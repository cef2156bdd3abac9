import HubRelay.Proofs.Session.Basic

/-!
Everything that one segment can do to an exchange.

`Deed` has one constructor for each kind of segment: what set it off, which conditions it met, the
exact state it leaves and what the operation waits for then. `deed_of_turn` says that every segment
is one of them. Facts about runs are proved by cases on deeds; only this module opens the operations
themselves.
-/

namespace HubRelay

/-- The request that an order puts on its way under a number. -/
def Order.request (order : Order) (role : Role) (transaction : TransactionId) : Message :=
  { header :=
      { handle := order.handle, type := .requestFrom role, transaction, error := .none
        command := order.command }
    payload := order.payload }

/-- The order that an operation gives; none for one that sends nothing or names no endpoint. -/
def Operation.order? (x : Exchange) : Operation → Option Order
  | .send handle command payload =>
      (x.requestTimeout handle).toOption.map fun timeout =>
        ⟨handle, command, payload, timeout, .once⟩
  | .sendWithTimeout handle command payload timeout =>
      some ⟨handle, command, payload, timeout, .once⟩
  | .sendPatiently handle command payload patience =>
      (x.requestTimeout handle).toOption.map fun timeout =>
        ⟨handle, command, payload, timeout, .patient patience⟩
  | .sendAndAwait handle command payload timeout =>
      some ⟨handle, command, payload, some timeout, .awaiting timeout⟩
  | _ => none

/-- The callers after several responses were handed over. -/
def Awaited.postAll (a : Awaited) (messages : List Message) : Awaited := messages.foldl post a

/-- What a scan hands to callers itself: the responses of the endpoints that answer at once. -/
def standingReplies (visits : List (Lapsed × Option Registration)) : List Message :=
  visits.filterMap fun visit =>
    (visit.2.filter (·.endpoint.isResident)).map (·.timeoutMessage visit.1)

/-- Whether a scan goes past this request at once: nobody holds its handle, or an endpoint that
answers at once does. -/
def Directory.passes (d : Directory) (l : Lapsed) : Bool :=
  (d.find? l.handle).all (·.endpoint.isResident)

/-- The lapsed requests that a scan gets to before it has to wait for an endpoint, each with the
registration at its handle. -/
def Directory.visits (d : Directory) : List Lapsed → List (Lapsed × Option Registration)
  | [] => []
  | l :: rest => (l, d.find? l.handle) :: if d.passes l then d.visits rest else []

/-! ### Endpoints that answer at once -/

/-- Exactly the endpoints of the program have to be called. -/
theorem Endpoint.standing?_eq_none_iff {endpoint : Endpoint} {type : MessageType} :
    endpoint.standing? type = none ↔ endpoint.isResident = false := by
  cases endpoint with
  | echo => cases type <;> exact iff_of_false nofun nofun
  | probe => cases type <;> exact iff_of_false nofun nofun
  | custom number => exact iff_of_true rfl rfl

/-- Who answers at once belongs to the exchange itself. -/
theorem Endpoint.isResident_of_standing? {endpoint : Endpoint} {type : MessageType}
    {code : ErrorCode} (standing : endpoint.standing? type = some code) :
    endpoint.isResident = true := by
  refine Bool.not_eq_false _ ▸ fun called => ?_
  rw [Endpoint.standing?_eq_none_iff.mpr called] at standing
  cases standing

namespace Exchange

variable {x : Exchange} {frame : Bytes} {r : Registration} {m : Message}

/-- An endpoint of the exchange itself gets the message of a frame if it holds the handle. -/
theorem mem_residents_iff : (r, m) ∈ x.residents frame ↔
    Message.decode frame = .ok m ∧ x.directory.find? m.header.handle = some r ∧
      r.endpoint.isResident = true := by
  unfold residents
  cases Message.decode frame with
  | error error => exact iff_of_false List.not_mem_nil nofun
  | ok m' =>
      simp only [List.mem_map, Option.mem_toList, Option.filter_eq_some_iff, Prod.mk.injEq,
        Except.ok.injEq]
      constructor
      · rintro ⟨r', ⟨found, resident⟩, rfl, rfl⟩
        exact ⟨rfl, found, resident⟩
      · rintro ⟨rfl, found, resident⟩
        exact ⟨r, ⟨found, resident⟩, rfl, rfl⟩

theorem residents_eq (decoded : Message.decode frame = .ok m)
    (found : x.directory.find? m.header.handle = some r) (resident : r.endpoint.isResident = true) :
    x.residents frame = [(r, m)] := by
  simp [residents, decoded, found, resident]

end Exchange

namespace Directory

variable {d : Directory} {l : Lapsed} {r : Registration} {front rest : List Lapsed}

/-- A scan goes past whoever holds the handle if it need not call them. -/
theorem passes_of_find? (found : d.find? l.handle = some r) :
    d.passes l = r.endpoint.isResident := by
  rw [passes, found]
  rfl

/-- It goes past a handle that nobody holds. -/
theorem passes_of_absent (absent : d.find? l.handle = none) : d.passes l = true := by
  rw [passes, absent]
  rfl

/-- A scan gets to all requests that it goes past, and then to the others. -/
theorem visits_append (passes : ∀ l ∈ front, d.passes l = true) (rest : List Lapsed) :
    d.visits (front ++ rest) = front.map (fun l => (l, d.find? l.handle)) ++ d.visits rest := by
  induction front with
  | nil => rfl
  | cons l front ih =>
      rw [List.cons_append, visits, if_pos (passes l List.mem_cons_self),
        ih fun l' mem => passes l' (List.mem_cons_of_mem l mem)]
      rfl

/-- It gets to the end of the list if it need not call anyone. -/
theorem visits_of_passes (passes : ∀ l ∈ front, d.passes l = true) :
    d.visits front = front.map fun l => (l, d.find? l.handle) := by
  have all := visits_append passes []
  rwa [List.append_nil, visits, List.append_nil] at all

/-- It looks up every handle that it gets to. -/
theorem find?_of_visits {lapsed : List Lapsed} {found : Option Registration}
    (mem : (l, found) ∈ d.visits lapsed) : found = d.find? l.handle := by
  induction lapsed with
  | nil => cases mem
  | cons first rest ih =>
      rw [visits] at mem
      rcases List.mem_cons.mp mem with same | mem
      · obtain ⟨rfl, rfl⟩ := Prod.mk.inj same
        rfl
      · split at mem
        · exact ih mem
        · cases mem

/-- It does not get beyond an endpoint that it has to call. -/
theorem visits_of_called (found : d.find? l.handle = some r)
    (called : r.endpoint.isResident = false) (rest : List Lapsed) :
    d.visits (l :: rest) = [(l, some r)] := by
  rw [visits, passes_of_find? found, called, found]
  rfl

end Directory

/-! ### Kinds of turns -/

/-- A turn that carries out an order. The sender is looked up now, or was before it had to
wait. -/
inductive Turn.Places (x : Exchange) : Turn → Role → Order → Prop where
  | started {operation : Operation} {order : Order} {r : Registration} :
      operation.order? x = some order → x.directory.find? order.handle = some r →
      order.command < r.descriptor.commands →
      Places x (.begins operation) r.descriptor.role order
  | resumed {wait : SlotWait} :
      Places x (.goesOn (.blocked (.slot wait)) .woken) wait.role wait.order

/-- A turn of a caller that waits for its response. -/
inductive Turn.AwaitsReply (now : Instant) : Turn → ReplyWait → Prop where
  | offered {o : Offering} {call : CallId} {span : Span} {accepted : Bool} :
      o.purpose = .request (some (call, span)) →
      AwaitsReply now (.goesOn (.offering o) (.transport accepted))
        ⟨call, o.message.header.key, span, now.after? span, false⟩
  | waiting {wait : ReplyWait} :
      AwaitsReply now (.goesOn (.blocked (.reply wait)) .woken) wait

/-- A turn that marks a received request as answered, if it still is the open one. -/
inductive Turn.Closes : Turn → RequestKey → Prop where
  | respond {request : Header} {error : ErrorCode} {payload : Bytes} :
      Closes (.begins (.respond request error payload)) request.key
  | failed {r : Registration} {m : Message} {code : ErrorCode} :
      code.isOk = false →
      Closes (.goesOn (.serving ⟨r, m, .answerRequest⟩) (.endpoint code)) m.header.key
  | unechoed {message : Message} {request : Header} :
      Closes (.goesOn (.offering ⟨message, .echo request⟩) (.transport false)) request.key

/-- A frame that gets through to the endpoint `r` as the message `m`. -/
structure Arrives (x : Exchange) (frame : Bytes) (r : Registration) (m : Message) : Prop where
  decoded : Message.decode frame = .ok m
  found : x.directory.find? m.header.handle = some r
  role : r.descriptor.role = m.header.type.receiver
  long : Exchange.longEnough r m = true
  command : m.header.command < r.descriptor.commands

/-- Nothing is begun, awaited, handed over or echoed with this. -/
inductive Progress.Plain : Progress → Prop where
  | finished (outcome : Outcome) : Plain (.finished outcome)
  | offering {o : Offering} : (∀ caller, o.purpose ≠ .request caller) →
      (∀ request, o.purpose ≠ .echo request) → Plain (.waiting (.offering o))
  | notifying {r : Registration} {m : Message} : Plain (.waiting (.serving ⟨r, m, .nothing⟩))
  | announcing {a : Announcing} : Plain (.waiting (.announcing a))

/-- A turn with this outcome leaves the exchange as it was. -/
structure Turn.Idle (turn : Turn) (p : Progress) : Prop where
  plain : p.Plain
  /-- It forgets nothing. -/
  noReset : turn ≠ .begins .reset
  noDismissal : ∀ handle, turn = .begins (.unregister handle) → p ≠ .finished (.unregistered true)
  /-- It finds and tells nothing lapsed. -/
  noScan : ∀ limit, turn ≠ .begins (.scan limit)
  noLapse : ∀ r m rest count reply, turn ≠ .goesOn (.serving ⟨r, m, .nextLapsed rest count⟩) reply
  /-- It takes no response. -/
  noDelivery : ∀ frame m code, turn = .begins (.receive frame) → Message.decode frame = .ok m →
    m.header.type.messageClass = .response → p ≠ .finished (.disposed (.delivered code))

/-- Where a scan stands that has `lapsed` before it. It goes past handles that nobody holds and
endpoints that answer at once, up to the first endpoint of the program, which it calls and waits
for. -/
inductive Progress.Tells (d : Directory) (count : Nat) (lapsed : List Lapsed) :
    Progress → Prop where
  | done : (∀ l ∈ lapsed, d.passes l = true) → Tells d count lapsed (.finished (.scanned count))
  | next {front rest : List Lapsed} {l : Lapsed} {r : Registration} :
      lapsed = front ++ l :: rest → (∀ l ∈ front, d.passes l = true) →
      d.find? l.handle = some r → r.endpoint.isResident = false →
      Tells d count lapsed (.waiting (.serving ⟨r, r.timeoutMessage l, .nextLapsed rest count⟩))

/-! ### Deeds -/

/-- The segment that follows a turn. Each constructor is one path through the operations: what has
set it off, under which conditions this path is taken, the exchange that it leaves, and where it
leaves the operation. Nothing else is ever opened again, so a change in an operation concerns the
constructors that describe it. -/
inductive Deed (x : Exchange) (now : Instant) : Turn → Segment → Prop where
  | idle {turn : Turn} {p : Progress} : turn.Idle p → Deed x now turn (x, p)
  | enrolled {descriptor : Descriptor} {endpoint : Endpoint} {handle : Handle} {d : Directory} :
      x.directory.register descriptor endpoint = .ok (handle, d) →
      Deed x now (.begins (.register descriptor endpoint))
        ({ x with directory := d }, .finished (.registered (.ok handle)))
  | enrolledAt {descriptor : Descriptor} {endpoint : Endpoint} {wish handle : Handle}
      {d : Directory} :
      x.directory.registerAt wish descriptor endpoint = .ok (handle, d) →
      Deed x now (.begins (.registerAt wish descriptor endpoint))
        ({ x with directory := d }, .finished (.registered (.ok handle)))
  | dismissed {handle : Handle} {r : Registration} {d : Directory} :
      x.directory.unregister handle = some (r, d) →
      Deed x now (.begins (.unregister handle))
        ({ x with
            directory := d
            ledger := x.ledger.removeEndpoint handle
            awaited := x.awaited.releaseEndpoint handle }, .finished (.unregistered true))
  | reset {p : Progress} : p.Plain →
      Deed x now (.begins .reset)
        ({ x with ledger := .empty, awaited := x.awaited.releaseAll }, p)
  | slotWait {turn : Turn} {wait : SlotWait} :
      turn.Places x wait.role wait.order →
      x.isPending wait.order.handle wait.order.command = true →
      Deed x now turn (x, .waiting (.blocked (.slot wait)))
  | sent {turn : Turn} {role : Role} {order : Order} :
      turn.Places x role order →
      (x.ledger.slotAt order.handle order.command).outgoing.pending = false →
      (∀ span, order.manner ≠ .awaiting span) →
      Deed x now turn
        ({ x with ledger := x.ledger.withRequest order.handle order.command order.timeout now },
          .waiting (.offering
            ⟨order.request role (x.ledger.slotAt order.handle order.command).nextTransaction,
              .request none⟩))
  | sentAwaiting {turn : Turn} {role : Role} {order : Order} {span : Span} :
      turn.Places x role order →
      (x.ledger.slotAt order.handle order.command).outgoing.pending = false →
      order.manner = .awaiting span →
      Deed x now turn
        ({ x with
            ledger := x.ledger.withRequest order.handle order.command order.timeout now
            awaited := (x.awaited.enlist ⟨order.handle, order.command,
              (x.ledger.slotAt order.handle order.command).nextTransaction⟩).2 },
          .waiting (.offering
            ⟨order.request role (x.ledger.slotAt order.handle order.command).nextTransaction,
              .request (some (x.awaited.calls, span))⟩))
  | waits {turn : Turn} {wait later : ReplyWait} :
      turn.AwaitsReply now wait → x.awaited.mailFor wait.call = .nothing →
      later.call = wait.call → later.key = wait.key →
      Deed x now turn (x, .waiting (.blocked (.reply later)))
  | mailed {turn : Turn} {wait : ReplyWait} {result : Except ExchangeError Message} :
      turn.AwaitsReply now wait →
      Deed x now turn
        ({ x with awaited := x.awaited.forget wait.call }, .finished (.replied result))
  | gaveUp {turn : Turn} {wait : ReplyWait} {result : Except ExchangeError Message} :
      turn.AwaitsReply now wait → turn.ending = .gaveUp →
      x.awaited.mailFor wait.call = .nothing → x.ledger.awaits wait.key = true →
      Deed x now turn
        ({ x with
            ledger := x.ledger.withoutRequest wait.key.handle wait.key.command
            awaited := (x.awaited.release wait.key).forget wait.call },
          .finished (.replied result))
  | overdue {turn : Turn} {wait : ReplyWait} {result : Except ExchangeError Message} :
      turn.AwaitsReply now wait →
      Deed x now turn
        ({ x with awaited := (x.awaited.release wait.key).forget wait.call },
          .finished (.replied result))
  | tookBack {o : Offering} {error : ExchangeError} :
      o.purpose = .request none → x.ledger.awaits o.message.header.key = true →
      Deed x now (.goesOn (.offering o) (.transport false))
        ({ x with
            ledger := x.ledger.withoutRequest o.message.header.handle o.message.header.command
            awaited := x.awaited.release o.message.header.key }, .finished (.sent (.error error)))
  | tookBackAwaiting {o : Offering} {call : CallId} {span : Span} {error : ExchangeError} :
      o.purpose = .request (some (call, span)) →
      x.ledger.awaits o.message.header.key = true →
      Deed x now (.goesOn (.offering o) (.transport false))
        ({ x with
            ledger := x.ledger.withoutRequest o.message.header.handle o.message.header.command
            awaited := (x.awaited.release o.message.header.key).forget call },
          .finished (.replied (.error error)))
  | received {frame : Bytes} {r : Registration} {m : Message} :
      Arrives x frame r m → m.header.type.messageClass = .request →
      Deed x now (.begins (.receive frame))
        ({ x with
            ledger := x.ledger.openIncoming m.header.handle m.header.command
              m.header.transaction now }, .waiting (.serving ⟨r, m, .answerRequest⟩))
  | answered {frame : Bytes} {r : Registration} {m : Message} {p : Progress} :
      Arrives x frame r m → m.header.type.messageClass = .request → p.Plain →
      Deed x now (.begins (.receive frame))
        ({ x with
            ledger := (x.ledger.openIncoming m.header.handle m.header.command
              m.header.transaction now).closed m.header.key }, p)
  | echoed {frame : Bytes} {r : Registration} {m : Message} {response : Header} :
      Arrives x frame r m → m.header.type.messageClass = .request →
      Deed x now (.begins (.receive frame))
        ({ x with
            ledger := (x.ledger.openIncoming m.header.handle m.header.command
              m.header.transaction now).closed m.header.key },
          .waiting (.offering ⟨⟨response, m.payload⟩, .echo m.header⟩))
  | closed {turn : Turn} {key : RequestKey} {p : Progress} :
      turn.Closes key → p.Plain →
      Deed x now turn ({ x with ledger := x.ledger.closed key }, p)
  | delivered {frame : Bytes} {r : Registration} {m : Message} :
      Arrives x frame r m → m.header.type.messageClass = .response →
      x.ledger.awaits m.header.key = true →
      Deed x now (.begins (.receive frame))
        ({ x with ledger := x.ledger.withoutRequest m.header.handle m.header.command },
          .waiting (.serving ⟨r, m, .wakeCaller⟩))
  | absorbed {frame : Bytes} {r : Registration} {m : Message} {code : ErrorCode} :
      Arrives x frame r m → m.header.type.messageClass = .response →
      x.ledger.awaits m.header.key = true → r.endpoint.isResident = true →
      Deed x now (.begins (.receive frame))
        ({ x with
            ledger := x.ledger.withoutRequest m.header.handle m.header.command
            awaited := x.awaited.post m }, .finished (.disposed (.delivered code)))
  | woke {r : Registration} {m : Message} {code : ErrorCode} :
      Deed x now (.goesOn (.serving ⟨r, m, .wakeCaller⟩) (.endpoint code))
        ({ x with awaited := x.awaited.post m }, .finished (.disposed (.delivered code)))
  | scanned {limit : Instant} {p : Progress} :
      p.Tells x.directory (x.ledger.takeLapsed limit).1.length (x.ledger.takeLapsed limit).1 →
      Deed x now (.begins (.scan limit))
        ({ x with
            ledger := (x.ledger.takeLapsed limit).2
            awaited := x.awaited.postAll
              (standingReplies (x.directory.visits (x.ledger.takeLapsed limit).1)) }, p)
  | told {r : Registration} {m : Message} {rest : List Lapsed} {count : Nat} {code : ErrorCode}
      {p : Progress} :
      p.Tells x.directory count rest →
      Deed x now (.goesOn (.serving ⟨r, m, .nextLapsed rest count⟩) (.endpoint code))
        ({ x with
            awaited := (x.awaited.post m).postAll
              (standingReplies (x.directory.visits rest)) }, p)

/-! ### Every segment is a deed -/

section Soundness

variable {x : Exchange} {now : Instant} {turn : Turn}

/-- A turn that may end, wait or go on in any plain way without a deed. What comes of it is plain
when it ends no request and calls no endpoint, and then there is nothing to account for. -/
def Turn.routine : Turn → Bool
  | .begins (.unregister _) | .begins (.receive _) | .begins (.scan _) | .begins .reset
  | .goesOn (.serving ⟨_, _, .nextLapsed _ _⟩) _ => false
  | _ => true

/-- A plain outcome of a routine turn leaves nothing to account for. -/
theorem Turn.idle_of_routine {p : Progress} (routine : turn.routine = true) (plain : p.Plain) :
    turn.Idle p where
  plain := plain
  noReset := by
    rintro rfl
    cases routine
  noDismissal := by
    rintro handle rfl
    cases routine
  noScan := by
    rintro limit rfl
    cases routine
  noLapse := by
    rintro r m rest count reply rfl
    cases routine
  noDelivery := by
    rintro frame m code rfl
    cases routine

/-- Carrying out an order is routine. -/
theorem Operation.routine_of_order? {operation : Operation} {order : Order}
    (ordered : operation.order? x = some order) : Turn.routine (.begins operation) = true := by
  cases operation with
  | send | sendWithTimeout | sendPatiently | sendAndAwait => rfl
  | _ => cases ordered

theorem Turn.Places.routine {role : Role} {order : Order} (places : turn.Places x role order) :
    turn.routine = true := by
  cases places with
  | started ordered => exact Operation.routine_of_order? ordered
  | resumed => rfl

/-- Whoever may send begins a request, or is told that the slot is busy. -/
theorem deed_beginRequest {role : Role} {order : Order} (places : turn.Places x role order) :
    Deed x now turn (x.beginRequest role order now) := by
  unfold Exchange.beginRequest
  rw [Ledger.begin_eq]
  cases pending : (x.ledger.slotAt order.handle order.command).outgoing.pending with
  | true => exact .idle (Turn.idle_of_routine places.routine (.finished _))
  | false =>
      cases manner : order.manner with
      | awaiting span =>
          simp only [Bool.false_eq_true, if_false]
          exact .sentAwaiting places pending manner
      | once | patient =>
          simp only [Bool.false_eq_true, if_false]
          exact .sent places pending fun span => by simp [manner]

/-- A sender that waits for its slot goes on waiting or begins its request. -/
theorem deed_pollSlot {wait : SlotWait} (places : turn.Places x wait.role wait.order) :
    Deed x now turn (x.pollSlot wait now) := by
  unfold Exchange.pollSlot
  split
  · rename_i busy
    exact .slotWait places (Bool.and_eq_true_iff.mp busy).1
  · exact deed_beginRequest places

/-- An order is refused, or its sender waits, or the request begins. -/
theorem deed_place {operation : Operation} {order : Order}
    (ordered : operation.order? x = some order) :
    Deed x now (.begins operation) (x.place order now) := by
  have failed (error : ExchangeError) :
      Turn.Idle (.begins operation) (.finished (order.fail error)) :=
    Turn.idle_of_routine (Operation.routine_of_order? ordered) (.finished _)
  unfold Exchange.place
  cases found : x.directory.find? order.handle with
  | none => exact .idle (failed _)
  | some r =>
      by_cases beyond : r.descriptor.commands ≤ order.command
      · simp only [beyond, if_true]
        exact .idle (failed _)
      · have places : Turn.Places x (.begins operation) r.descriptor.role order :=
          .started ordered found (UInt16.not_le.mp beyond)
        simp only [beyond, if_false]
        cases manner : order.manner with
        | patient span =>
            simp only
            cases now.after? span with
            | none => exact .idle (Turn.idle_of_routine places.routine (.finished _))
            | some deadline => exact deed_pollSlot places
        | once | awaiting => exact deed_beginRequest places

/-! ### Waiting for a response -/

/-- A caller whose request has ended waits for the response that is being handed over. -/
theorem deed_pollHandOver {wait later : ReplyWait} (waiting : turn.AwaitsReply now wait)
    (call : later.call = wait.call) (key : later.key = wait.key) :
    Deed x now turn (x.pollHandOver later now) := by
  unfold Exchange.pollHandOver
  rw [call, key]
  cases mail : x.awaited.mailFor wait.call with
  | delivered message => exact .mailed waiting
  | released => exact .mailed waiting
  | nothing =>
      simp only
      split
      · exact .overdue waiting
      · exact .waits waiting mail call key

/-- A caller has mail, waits on, or gives its own request up. A caller may also find that its time
is over when its request has ended already; then it waits for the response that is being handed
over. -/
theorem deed_pollReply {wait : ReplyWait} (waiting : turn.AwaitsReply now wait)
    (own : x.ledger.awaits wait.key = true → turn.ending = .gaveUp) :
    Deed x now turn (x.pollReply wait now) := by
  unfold Exchange.pollReply
  cases mail : x.awaited.mailFor wait.call with
  | delivered message => exact .mailed waiting
  | released => exact .mailed waiting
  | nothing =>
      simp only
      split
      · exact deed_pollHandOver waiting rfl rfl
      · split
        · rw [Ledger.expire_eq]
          cases pending : x.ledger.awaits wait.key with
          | true => exact .gaveUp waiting (own pending) mail pending
          | false => exact deed_pollHandOver waiting rfl rfl
        · exact .waits waiting mail rfl rfl

/-- When the transport has taken a request, its caller begins to wait. -/
theorem deed_requestAccepted {o : Offering} {caller : Option (CallId × Span)} {accepted : Bool}
    (purpose : o.purpose = .request caller)
    (own : x.ledger.awaits o.message.header.key = true → accepted = true) :
    Deed x now (.goesOn (.offering o) (.transport accepted))
      (x.requestAccepted o.message.header caller now) := by
  cases caller with
  | none => exact .idle (Turn.idle_of_routine rfl (.finished _))
  | some caller =>
      refine deed_pollReply (.offered purpose) fun pending => ?_
      rw [own pending]
      rfl

/-- When the transport refuses a request, it is taken back if it is still pending. -/
theorem deed_requestRefused {o : Offering} {caller : Option (CallId × Span)}
    (purpose : o.purpose = .request caller) :
    Deed x now (.goesOn (.offering o) (.transport false))
      (x.requestRefused o.message.header caller now) := by
  unfold Exchange.requestRefused
  have aborted : x.ledger.abort o.message.header.handle o.message.header.command
      o.message.header.transaction = if x.ledger.awaits o.message.header.key then
        some (x.ledger.withoutRequest o.message.header.handle o.message.header.command)
      else none := Ledger.abort_eq x.ledger o.message.header.key
  rw [aborted]
  cases pending : x.ledger.awaits o.message.header.key with
  | true =>
      cases caller with
      | none => exact .tookBack purpose pending
      | some caller => exact .tookBackAwaiting purpose pending
  | false =>
      exact deed_requestAccepted purpose fun awaited => by rw [pending] at awaited; cases awaited

/-! ### Requests received -/

/-- A request has a response with every code. -/
theorem Header.response?_of_request {request : Header}
    (asks : request.type.messageClass = .request) (error : ErrorCode) :
    ∃ response, request.response? error = some response ∧ response.key = request.key ∧
      response.error = error ∧ response.type.messageClass = .response := by
  obtain ⟨handle, type, transaction, code, command⟩ := request
  cases type with
  | clientRequest => exact ⟨_, rfl, rfl, rfl, rfl⟩
  | serviceRequest => exact ⟨_, rfl, rfl, rfl, rfl⟩
  | _ => cases asks

/-- The latency of a response is only reported; what is closed does not depend on it. -/
theorem closeIncoming_header (l : Ledger) (request : Header) (now : Instant) :
    ∃ latency, l.closeIncoming request.handle request.command request.transaction now =
      if l.owes request.key then some (latency, l.closed request.key) else none :=
  ⟨_, Ledger.closeIncoming_eq l request.key now⟩

/-- Offering a response marks the request as answered, whatever comes of it. -/
theorem offerResponse_eq (x : Exchange) (request : Header) (error : ErrorCode) (payload : Bytes)
    (purpose : Purpose) (now : Instant) :
    x.offerResponse request error payload purpose now =
      match request.response? error with
      | none =>
          { x with ledger := x.ledger.closed request.key }.finish
            (.acknowledged (.error (.unknownType request.handle request.type.code)))
      | some header =>
          { x with ledger := x.ledger.closed request.key }.offer ⟨header, payload⟩ purpose := by
  unfold Exchange.offerResponse
  obtain ⟨latency, closed⟩ := closeIncoming_header x.ledger request now
  rw [closed]
  cases owed : x.ledger.owes request.key with
  | true => rfl
  | false =>
      rw [Ledger.closed_of_not_owes owed]
      rfl

/-- An endpoint's failure is answered exactly if the request is still the open one. -/
theorem requestServed_eq (x : Exchange) (request : Header) (code : ErrorCode) (now : Instant) :
    x.requestServed request code now =
      if code.isOk then x.finish (.disposed (.delivered code))
      else
        ({ x with ledger := x.ledger.closed request.key },
          if x.ledger.owes request.key then
            match request.response? code with
            | none => .finished (.disposed (.delivered code))
            | some response => .waiting (.offering ⟨⟨response, []⟩, .errorAnswer code⟩)
          else .finished (.disposed (.delivered code))) := by
  unfold Exchange.requestServed
  obtain ⟨latency, closed⟩ := closeIncoming_header x.ledger request now
  rw [closed]
  split
  · rfl
  · cases owed : x.ledger.owes request.key with
    | false =>
        rw [Ledger.closed_of_not_owes owed]
        rfl
    | true => cases request.response? code <;> rfl

/-- Answering for an endpoint begins no request and wakes no caller. -/
theorem plain_requestServed (x : Exchange) (request : Header) (code : ErrorCode) (now : Instant) :
    (x.requestServed request code now).2.Plain := by
  rw [requestServed_eq]
  split
  · exact .finished _
  · simp only
    split
    · split
      · exact .finished _
      · exact .offering nofun nofun
    · exact .finished _

theorem plain_offerResponse (x : Exchange) (request : Header) (error : ErrorCode)
    (payload : Bytes) (now : Instant) :
    (x.offerResponse request error payload .response now).2.Plain := by
  rw [offerResponse_eq]
  split
  · exact .finished _
  · exact .offering nofun nofun

/-- When an endpoint has handled a request, the exchange answers for it if it failed without an
answer. -/
theorem deed_requestServed {request : Header} {code : ErrorCode} (routine : turn.routine = true)
    (closes : code.isOk = false → turn.Closes request.key) :
    Deed x now turn (x.requestServed request code now) := by
  have plain := plain_requestServed x request code now
  cases ok : code.isOk with
  | true =>
      rw [requestServed_eq, if_pos ok] at plain ⊢
      exact .idle (Turn.idle_of_routine routine plain)
  | false =>
      rw [requestServed_eq, if_neg (by simp [ok])] at plain ⊢
      exact .closed (closes ok) plain

/-! ### Frames that arrive -/

/-- A frame that leaves the exchange as it was. -/
theorem Turn.idle_receive {frame : Bytes} {p : Progress} (plain : p.Plain)
    (undelivered : ∀ m code, Message.decode frame = .ok m →
      m.header.type.messageClass = .response → p ≠ .finished (.disposed (.delivered code))) :
    Turn.Idle (.begins (.receive frame)) p where
  plain := plain
  noReset := by
    rintro ⟨⟩
  noDismissal := by
    rintro handle ⟨⟩
  noScan := by
    rintro limit ⟨⟩
  noLapse := by
    rintro r m rest count reply ⟨⟩
  noDelivery := by
    intro other m code same decoded
    obtain rfl := Operation.receive.inj (Turn.begins.inj same)
    exact undelivered m code decoded

/-- A frame that is rejected leaves the exchange as it was. -/
theorem deed_reject (x : Exchange) (frame : Bytes) (header : Header) (code : ErrorCode) :
    Deed x now (.begins (.receive frame)) (x.reject header code) := by
  unfold Exchange.reject
  cases header.response? code with
  | none => exact .idle (Turn.idle_receive (.finished _) fun _ _ _ _ => nofun)
  | some response => exact .idle (Turn.idle_receive (.offering nofun nofun) fun _ _ _ _ => nofun)

/-- A request opens its slot; the endpoints of the exchange itself close it at once. -/
theorem deed_receiveRequest {frame : Bytes} {r : Registration} {m : Message}
    (arrives : m.header.command < r.descriptor.commands → Arrives x frame r m)
    (request : m.header.type.messageClass = .request) :
    Deed x now (.begins (.receive frame)) (x.receiveRequest r m now) := by
  unfold Exchange.receiveRequest
  by_cases beyond : r.descriptor.commands ≤ m.header.command
  · rw [if_pos beyond]
    exact deed_reject x frame m.header .invalidCommand
  · replace arrives := arrives (UInt16.not_le.mp beyond)
    simp only [beyond, if_false]
    cases endpoint : r.endpoint with
    | custom number => exact .received arrives request
    | echo =>
        simp only [offerResponse_eq]
        split
        · exact .answered arrives request (.finished _)
        · exact .echoed arrives request
    | probe =>
        have plain := plain_requestServed { x with
          ledger := x.ledger.openIncoming m.header.handle m.header.command m.header.transaction
            now } m.header .unhandled now
        simp only [requestServed_eq] at plain ⊢
        exact .answered arrives request plain

/-- A response frees the slot of the request that it answers; a stale one does nothing. -/
theorem deed_receiveResponse {frame : Bytes} {r : Registration} {m : Message}
    (arrives : m.header.command < r.descriptor.commands → Arrives x frame r m)
    (response : m.header.type.messageClass = .response) :
    Deed x now (.begins (.receive frame)) (x.receiveResponse r m now) := by
  have stale : Deed x now (.begins (.receive frame)) (x.finish (.disposed .stale)) :=
    .idle (Turn.idle_receive (.finished _) fun _ _ _ _ => nofun)
  unfold Exchange.receiveResponse
  by_cases beyond : r.descriptor.commands ≤ m.header.command
  · rw [if_pos beyond]
    exact stale
  · replace arrives := arrives (UInt16.not_le.mp beyond)
    simp only [beyond, if_false]
    cases pending : x.ledger.awaits m.header.key with
    | true =>
        have completed := Ledger.complete_of_awaits pending now
        simp only [Header.key] at completed
        simp only [completed]
        cases standing : r.endpoint.standing? m.header.type with
        | none => exact .delivered arrives response pending
        | some code =>
            exact .absorbed arrives response pending (Endpoint.isResident_of_standing? standing)
    | false =>
        obtain ⟨correlation, unmatched, completed⟩ := Ledger.complete_of_not_awaits pending now
        simp only [Header.key] at completed
        simp only [completed]
        cases correlation with
        | matched latency => exact absurd rfl (unmatched latency)
        | mismatch | notPending => exact stale

/-- A notification changes nothing in the exchange. -/
theorem deed_receiveNotification {frame : Bytes} {r : Registration} {m : Message}
    (decoded : Message.decode frame = .ok m)
    (notification : m.header.type.messageClass = .notification) :
    Deed x now (.begins (.receive frame)) (x.receiveNotification r m) := by
  have undelivered (p : Progress) (m' : Message) (code : ErrorCode)
      (decoded' : Message.decode frame = .ok m')
      (response : m'.header.type.messageClass = .response) :
      p ≠ .finished (.disposed (.delivered code)) := by
    rw [decoded] at decoded'
    obtain rfl := Except.ok.inj decoded'
    rw [notification] at response
    cases response
  unfold Exchange.receiveNotification
  cases r.endpoint.standing? m.header.type with
  | none => exact .idle (Turn.idle_receive .notifying (undelivered _))
  | some code => exact .idle (Turn.idle_receive (.finished _) (undelivered _))

/-- Every frame is a deed, whatever its bytes. -/
theorem deed_receive (x : Exchange) (frame : Bytes) :
    Deed x now (.begins (.receive frame)) (x.receive frame now) := by
  unfold Exchange.receive
  cases decoded : Message.decode frame with
  | error error =>
      cases error <;> exact .idle (Turn.idle_receive (.finished _) fun _ _ _ _ => nofun)
  | ok m =>
      simp only
      cases found : x.directory.find? m.header.handle with
      | none => exact deed_reject x frame m.header .invalidArg
      | some r =>
          simp only
          split
          · exact deed_reject x frame m.header .invalidArg
          · rename_i role
            split
            · exact deed_reject x frame m.header .invalidArg
            · rename_i long
              have arrives (command : m.header.command < r.descriptor.commands) :
                  Arrives x frame r m :=
                ⟨decoded, found, Decidable.not_not.mp role, by simpa using long, command⟩
              cases kind : m.header.type.messageClass with
              | request => exact deed_receiveRequest arrives kind
              | response => exact deed_receiveResponse arrives kind
              | notification => exact deed_receiveNotification decoded kind

/-! ### Lapsed requests -/

/-- A scan that goes past a request stands where it would stand without it. -/
theorem Progress.Tells.cons {d : Directory} {count : Nat} {l : Lapsed} {lapsed : List Lapsed}
    {p : Progress} (tells : p.Tells d count lapsed) (passed : d.passes l = true) :
    p.Tells d count (l :: lapsed) := by
  cases tells with
  | done all => exact .done (List.forall_mem_cons.mpr ⟨passed, all⟩)
  | next split all found called =>
      exact .next (congrArg (l :: ·) split) (List.forall_mem_cons.mpr ⟨passed, all⟩) found called

/-- A scan hands over the standing replies up to the first endpoint that it has to call. The loop
over the lapsed requests is opened here and nowhere else. -/
theorem tellLapsed_eq (x : Exchange) (count : Nat) (lapsed : List Lapsed) :
    ∃ p : Progress, p.Tells x.directory count lapsed ∧
      x.tellLapsed count lapsed =
        ({ x with
            awaited := x.awaited.postAll (standingReplies (x.directory.visits lapsed)) }, p) := by
  induction lapsed generalizing x with
  | nil => exact ⟨.finished (.scanned count), .done (List.forall_mem_nil _), rfl⟩
  | cons l rest ih =>
      unfold Exchange.tellLapsed
      cases found : x.directory.find? l.handle with
      | none =>
          have passes := Directory.passes_of_absent found
          obtain ⟨p, tells, same⟩ := ih x
          refine ⟨p, tells.cons passes, ?_⟩
          rw [Directory.visits, if_pos passes, found]
          exact same
      | some r =>
          cases standing : r.endpoint.standing? (r.timeoutMessage l).header.type with
          | none =>
              have called := Endpoint.standing?_eq_none_iff.mp standing
              refine ⟨_, .next (List.nil_append _).symm (List.forall_mem_nil _) found called, ?_⟩
              rw [Directory.visits_of_called found called]
              simp [standing, standingReplies, called, Awaited.postAll, Exchange.call]
          | some code =>
              have resident := Endpoint.isResident_of_standing? standing
              have passes := (Directory.passes_of_find? found).trans resident
              obtain ⟨p, tells, same⟩ :=
                ih { x with awaited := x.awaited.post (r.timeoutMessage l) }
              refine ⟨p, tells.cons passes, ?_⟩
              rw [Directory.visits, if_pos passes, found]
              simp only [standing, same]
              simp [standingReplies, resident, Awaited.postAll]

/-! ### All turns -/

/-- Telling endpoints about the link changes nothing in the exchange. -/
theorem plain_announce (x : Exchange) (announcement : Announcement) (rest : List Registration) :
    (x.announce announcement rest).1 = x ∧ (x.announce announcement rest).2.Plain := by
  cases rest with
  | nil => exact ⟨rfl, .finished _⟩
  | cons r rest => exact ⟨rfl, .announcing⟩

/-- Every operation starts with a deed. -/
theorem deed_start (x : Exchange) (operation : Operation) :
    Deed x now (.begins operation) (x.start operation now) := by
  have failed {operation : Operation} (routine : Turn.routine (.begins operation) = true)
      (outcome : Outcome) : Deed x now (.begins operation) (x.finish outcome) :=
    .idle (Turn.idle_of_routine routine (.finished _))
  cases operation with
  | register descriptor endpoint =>
      simp only [Exchange.start, Exchange.register]
      cases registered : x.directory.register descriptor endpoint with
      | error error => exact failed rfl _
      | ok result => exact .enrolled registered
  | registerAt handle descriptor endpoint =>
      simp only [Exchange.start, Exchange.registerAt]
      cases registered : x.directory.registerAt handle descriptor endpoint with
      | error error => exact failed rfl _
      | ok result => exact .enrolledAt registered
  | unregister handle =>
      simp only [Exchange.start, Exchange.unregister]
      cases gone : x.directory.unregister handle with
      | none =>
          exact .idle
            { plain := .finished _
              noReset := by
                rintro ⟨⟩
              noDismissal := fun _ _ => nofun
              noScan := by
                rintro limit ⟨⟩
              noLapse := by
                rintro r m rest count reply ⟨⟩
              noDelivery := by
                rintro frame m code ⟨⟩ }
      | some result => exact .dismissed gone
  | send handle command payload =>
      simp only [Exchange.start, Exchange.send]
      cases known : x.requestTimeout handle with
      | error error => exact failed rfl _
      | ok timeout => exact deed_place (by simp [Operation.order?, known, Except.toOption])
  | sendWithTimeout handle command payload timeout => exact deed_place rfl
  | sendPatiently handle command payload patience =>
      simp only [Exchange.start, Exchange.sendPatiently]
      cases known : x.requestTimeout handle with
      | error error => exact failed rfl _
      | ok timeout => exact deed_place (by simp [Operation.order?, known, Except.toOption])
  | sendAndAwait handle command payload timeout => exact deed_place rfl
  | respond request error payload =>
      have plain := plain_offerResponse x request error payload now
      simp only [Exchange.start, Exchange.respond]
      rw [offerResponse_eq] at plain ⊢
      split at plain <;> exact .closed .respond plain
  | notify handle command payload =>
      simp only [Exchange.start, Exchange.notify]
      cases x.directory.find? handle with
      | none => exact failed rfl _
      | some r => exact .idle (Turn.idle_of_routine rfl (.offering nofun nofun))
  | receive frame => exact deed_receive x frame
  | scan limit =>
      obtain ⟨p, tells, same⟩ := tellLapsed_eq { x with ledger := (x.ledger.takeLapsed limit).2 }
        (x.ledger.takeLapsed limit).1.length (x.ledger.takeLapsed limit).1
      simp only [Exchange.start, Exchange.scan, same]
      exact .scanned tells
  | reset =>
      obtain ⟨same, plain⟩ := plain_announce
        { x with ledger := .empty, awaited := x.awaited.releaseAll } .reset x.directory.entries
      have forgotten : x.reset = (_, x.reset.2) := Prod.ext same rfl
      simp only [Exchange.start]
      rw [forgotten]
      exact .reset plain
  | establish =>
      obtain ⟨same, plain⟩ := plain_announce x .established x.directory.entries
      have unchanged : x.establish = (x, (x.announce .established x.directory.entries).2) :=
        Prod.ext same rfl
      simp only [Exchange.start, unchanged]
      exact .idle (Turn.idle_of_routine rfl plain)

/-- What follows the transport's answer is a deed. -/
theorem deed_offered (x : Exchange) (o : Offering) (accepted : Bool) :
    Deed x now (.goesOn (.offering o) (.transport accepted)) (x.offered o accepted now) := by
  have finished (outcome : Outcome) :
      Deed x now (.goesOn (.offering o) (.transport accepted)) (x.finish outcome) :=
    .idle (Turn.idle_of_routine rfl (.finished _))
  obtain ⟨message, purpose⟩ := o
  cases purpose with
  | request caller =>
      cases accepted with
      | true => exact deed_requestAccepted rfl fun _ => rfl
      | false => exact deed_requestRefused rfl
  | response | notification | rejection | errorAnswer => exact finished _
  | echo request =>
      refine deed_requestServed rfl fun failed => ?_
      cases accepted with
      | true => cases failed
      | false => exact .unechoed

/-- What follows an endpoint's answer is a deed. -/
theorem deed_served (x : Exchange) (s : Serving) (code : ErrorCode) :
    Deed x now (.goesOn (.serving s) (.endpoint code)) (x.served s code now) := by
  obtain ⟨r, m, sequel⟩ := s
  unfold Exchange.served
  cases sequel with
  | answerRequest => exact deed_requestServed rfl .failed
  | wakeCaller => exact .woke
  | nothing => exact .idle (Turn.idle_of_routine rfl (.finished _))
  | nextLapsed rest count =>
      obtain ⟨p, tells, same⟩ := tellLapsed_eq { x with awaited := x.awaited.post m } count rest
      simp only [same]
      exact .told tells

/-- What a blocked caller does when it looks is a deed. -/
theorem deed_poll (x : Exchange) (b : Blocked) :
    Deed x now (.goesOn (.blocked b) .woken) (x.poll b now) := by
  cases b with
  | slot wait => exact deed_pollSlot .resumed
  | reply wait => exact deed_pollReply .waiting fun _ => rfl

theorem deed_told (x : Exchange) (a : Announcing) :
    Deed x now (.goesOn (.announcing a) .noted) (x.told a) := by
  obtain ⟨same, plain⟩ := plain_announce x a.announcement a.rest
  have unchanged : x.told a = (x, (x.announce a.announcement a.rest).2) := Prod.ext same rfl
  rw [unchanged]
  exact .idle (Turn.idle_of_routine rfl plain)

/-- Every segment is a deed, whatever turn sets it off. All invariants of sessions rest on this. -/
theorem deed_of_turn {segment : Segment} (happened : x.turn turn now = some segment) :
    Deed x now turn segment := by
  cases turn with
  | begins operation =>
      obtain rfl := Option.some.inj happened
      exact deed_start x operation
  | goesOn activity reply =>
      cases activity with
      | offering o =>
          cases reply with
          | transport accepted =>
              obtain rfl := Option.some.inj happened
              exact deed_offered x o accepted
          | _ => cases happened
      | serving s =>
          cases reply with
          | endpoint code =>
              obtain rfl := Option.some.inj happened
              exact deed_served x s code
          | _ => cases happened
      | announcing a =>
          cases reply with
          | noted =>
              obtain rfl := Option.some.inj happened
              exact deed_told x a
          | _ => cases happened
      | blocked b =>
          cases reply with
          | woken =>
              obtain rfl := Option.some.inj happened
              exact deed_poll x b
          | _ => cases happened

end Soundness

end HubRelay
