import HubRelay.Proofs.Session.Requests

/-!
Segments in the plain case, where nothing stands in the way, and how sessions go on with them.
-/

namespace HubRelay

namespace Exchange

variable {x : Exchange} {r : Registration}

/-- Every operation that gives an order carries it out. -/
theorem start_of_order {operation : Operation} {order : Order}
    (ordered : operation.order? x = some order) (now : Instant) :
    x.start operation now = x.place order now := by
  cases operation with
  | send handle command payload =>
      cases known : x.requestTimeout handle with
      | error error => simp [Operation.order?, known, Except.toOption] at ordered
      | ok timeout =>
          simp only [Operation.order?, known, Except.toOption, Option.map_some,
            Option.some.injEq] at ordered
          simp only [start, send, known, ordered]
  | sendPatiently handle command payload patience =>
      cases known : x.requestTimeout handle with
      | error error => simp [Operation.order?, known, Except.toOption] at ordered
      | ok timeout =>
          simp only [Operation.order?, known, Except.toOption, Option.map_some,
            Option.some.injEq] at ordered
          simp only [start, sendPatiently, known, ordered]
  | sendWithTimeout | sendAndAwait =>
      obtain rfl := Option.some.inj ordered
      rfl
  | _ => cases ordered

/-- An operation gives this order, the endpoint that is to send the request stands, and the command
is one of its own. -/
structure Orders (x : Exchange) (operation : Operation) (order : Order) (r : Registration) :
    Prop where
  ordered : operation.order? x = some order
  found : x.directory.find? order.handle = some r
  within : order.command < r.descriptor.commands

/-- The key under which the request of an order is sent next. -/
def keyFor (x : Exchange) (order : Order) : RequestKey :=
  ⟨order.handle, order.command, (x.ledger.slotAt order.handle order.command).nextTransaction⟩

/-- The caller that is to wait for the response, and how long it does. -/
def callerFor (x : Exchange) (order : Order) : Option (CallId × Span) :=
  match order.manner with
  | .awaiting span => some (x.awaited.calls, span)
  | _ => none

/-- The exchange once the request of an order has begun. -/
def asking (x : Exchange) (order : Order) (now : Instant) : Exchange :=
  { x with
    ledger := x.ledger.withRequest order.handle order.command order.timeout now
    awaited :=
      match order.manner with
      | .awaiting _ => (x.awaited.enlist (x.keyFor order)).2
      | _ => x.awaited }

/-- The request of an order as it is offered to the transport. -/
def asked (x : Exchange) (order : Order) (role : Role) : Offering :=
  ⟨order.request role (x.keyFor order).transaction, .request (x.callerFor order)⟩

theorem beginRequest_of_idle {order : Order}
    (idle : (x.ledger.slotAt order.handle order.command).outgoing.pending = false) (role : Role)
    (now : Instant) :
    x.beginRequest role order now =
      (x.asking order now, .waiting (.offering (x.asked order role))) := by
  simp only [beginRequest, Ledger.begin_eq, idle, Bool.false_eq_true, if_false, asking, asked,
    callerFor]
  cases order.manner <;> rfl

/-- The endpoint is there and its slot is free, so the request is offered. -/
theorem start_of_idle {operation : Operation} {order : Order} {now : Instant}
    (orders : x.Orders operation order r)
    (idle : (x.ledger.slotAt order.handle order.command).outgoing.pending = false)
    (patience : ∀ span, order.manner = .patient span →
      ∃ deadline, now.after? span = some deadline) :
    x.start operation now =
      (x.asking order now, .waiting (.offering (x.asked order r.descriptor.role))) := by
  have inRange : ¬ r.descriptor.commands ≤ order.command := UInt16.not_le.mpr orders.within
  rw [start_of_order orders.ordered, place, orders.found]
  simp only [inRange, if_false]
  cases manner : order.manner with
  | once | awaiting => exact beginRequest_of_idle idle _ now
  | patient span =>
      obtain ⟨deadline, ends⟩ := patience span manner
      have free : x.isPending order.handle order.command = false := by
        rw [isPending, Ledger.isPending_eq, idle]
      simp only [ends, pollSlot, free, Bool.false_and, Bool.false_eq_true, if_false]
      exact beginRequest_of_idle idle _ now

theorem start_sendWithTimeout {handle : Handle} {command : Command}
    (found : x.directory.find? handle = some r) (within : command < r.descriptor.commands)
    (idle : (x.ledger.slotAt handle command).outgoing.pending = false) (payload : Bytes)
    (timeout : Option Span) (now : Instant) :
    x.start (.sendWithTimeout handle command payload timeout) now =
      ({ x with ledger := x.ledger.withRequest handle command timeout now },
        .waiting (.offering
          ⟨(⟨handle, command, payload, timeout, .once⟩ : Order).request r.descriptor.role
            (x.ledger.slotAt handle command).nextTransaction, .request none⟩)) := by
  have orders : x.Orders (.sendWithTimeout handle command payload timeout)
      ⟨handle, command, payload, timeout, .once⟩ r := ⟨rfl, found, within⟩
  exact start_of_idle orders idle nofun

theorem start_sendAndAwait {handle : Handle} {command : Command}
    (found : x.directory.find? handle = some r) (within : command < r.descriptor.commands)
    (idle : (x.ledger.slotAt handle command).outgoing.pending = false) (payload : Bytes)
    (span : Span) (now : Instant) :
    x.start (.sendAndAwait handle command payload span) now =
      ({ x with
          ledger := x.ledger.withRequest handle command (some span) now
          awaited := (x.awaited.enlist
            ⟨handle, command, (x.ledger.slotAt handle command).nextTransaction⟩).2 },
        .waiting (.offering
          ⟨(⟨handle, command, payload, some span, .awaiting span⟩ : Order).request
            r.descriptor.role (x.ledger.slotAt handle command).nextTransaction,
            .request (some (x.awaited.calls, span))⟩)) := by
  have orders : x.Orders (.sendAndAwait handle command payload span)
      ⟨handle, command, payload, some span, .awaiting span⟩ r := ⟨rfl, found, within⟩
  exact start_of_idle orders idle nofun

/-- The slot is busy, so a patient sender waits for it. -/
theorem start_sendPatiently_busy {handle : Handle} {command : Command} {patience : Span}
    {now deadline : Instant} (found : x.directory.find? handle = some r)
    (within : command < r.descriptor.commands) (busy : x.isPending handle command = true)
    (ends : now.after? patience = some deadline) (ahead : now < deadline) (payload : Bytes) :
    x.start (.sendPatiently handle command payload patience) now =
      (x, .waiting (.blocked (.slot
        ⟨r.descriptor.role, ⟨handle, command, payload,
          r.descriptor.timeout.or x.settings.requestTimeout, .patient patience⟩, deadline⟩))) := by
  have inRange : ¬ r.descriptor.commands ≤ command := UInt16.not_le.mpr within
  simp only [start, sendPatiently, requestTimeout, place, found, inRange, if_false, ends, pollSlot,
    busy, ahead, decide_true, Bool.and_self, if_true]

/-- The slot has become free, and the sender that waited takes it. -/
theorem pollSlot_free (wait : SlotWait)
    (idle : (x.ledger.slotAt wait.order.handle wait.order.command).outgoing.pending = false)
    (replies : ∀ span, wait.order.manner ≠ .awaiting span) (now : Instant) :
    x.pollSlot wait now =
      ({ x with
          ledger := x.ledger.withRequest wait.order.handle wait.order.command wait.order.timeout
            now },
        .waiting (.offering
          ⟨wait.order.request wait.role
            (x.ledger.slotAt wait.order.handle wait.order.command).nextTransaction,
              .request none⟩)) := by
  have free : x.isPending wait.order.handle wait.order.command = false := by
    rw [isPending, Ledger.isPending_eq, idle]
  simp only [pollSlot, free, Bool.false_and, Bool.false_eq_true, if_false, beginRequest,
    Ledger.begin_eq, idle]
  rfl

/-- An endpoint goes, and its slots with it. -/
theorem start_unregister {handle : Handle} (found : x.directory.find? handle = some r)
    (now : Instant) :
    x.start (.unregister handle) now =
      ({ x with
          directory := { x.directory with table := x.directory.table.erase handle }
          ledger := x.ledger.removeEndpoint handle
          awaited := x.awaited.releaseEndpoint handle }, .finished (.unregistered true)) := by
  simp only [start, unregister, Directory.unregister, found, Option.map_some]
  rfl

/-- The transport refuses a request that is still pending. -/
theorem offered_refused (message : Message)
    (pending : x.ledger.awaits message.header.key = true) (now : Instant) :
    x.offered ⟨message, .request none⟩ false now =
      ({ x with
          ledger := x.ledger.withoutRequest message.header.handle message.header.command
          awaited := x.awaited.release message.header.key },
        .finished (.sent (.error (.refused message.header.handle message.header.command)))) := by
  have aborted := Ledger.abort_eq x.ledger message.header.key
  rw [if_pos pending] at aborted
  simp only [Header.key] at aborted
  simp only [offered, requestRefused, aborted]
  rfl

/-- A frame brings the response to a pending request of an endpoint that has to be called. -/
theorem start_receive_matched {frame : Bytes} {m : Message} {number : Nat}
    (arrives : Arrives x frame r m) (response : m.header.type.messageClass = .response)
    (custom : r.endpoint = .custom number) (pending : x.ledger.awaits m.header.key = true)
    (now : Instant) :
    x.start (.receive frame) now =
      ({ x with ledger := x.ledger.withoutRequest m.header.handle m.header.command },
        .waiting (.serving ⟨r, m, .wakeCaller⟩)) := by
  have inRange : ¬ r.descriptor.commands ≤ m.header.command := UInt16.not_le.mpr arrives.command
  have completed := Ledger.complete_of_awaits pending now
  simp only [Header.key] at completed
  simp only [start, receive, arrives.decoded, arrives.found, arrives.role, arrives.long,
    response, receiveResponse, inRange, completed, custom, Endpoint.standing?, ne_eq,
    not_true_eq_false, Bool.not_true, Bool.false_eq_true, if_false]
  rfl

/-- The exchange's own endpoints take a response at once. -/
theorem start_receive_absorbed {frame : Bytes} {m : Message} {code : ErrorCode}
    (arrives : Arrives x frame r m) (response : m.header.type.messageClass = .response)
    (standing : r.endpoint.standing? m.header.type = some code)
    (pending : x.ledger.awaits m.header.key = true) (now : Instant) :
    x.start (.receive frame) now =
      ({ x with
          ledger := x.ledger.withoutRequest m.header.handle m.header.command
          awaited := x.awaited.post m }, .finished (.disposed (.delivered code))) := by
  have inRange : ¬ r.descriptor.commands ≤ m.header.command := UInt16.not_le.mpr arrives.command
  have completed := Ledger.complete_of_awaits pending now
  simp only [Header.key] at completed
  simp only [start, receive, arrives.decoded, arrives.found, arrives.role, arrives.long,
    response, receiveResponse, inRange, completed, standing, ne_eq,
    not_true_eq_false, Bool.not_true, Bool.false_eq_true, if_false]
  rfl

/-- A caller whose request was accepted begins to wait. -/
theorem offered_waits {message : Message} {call : CallId} {span : Span}
    (nothing : x.awaited.mailFor call = .nothing) (positive : 0 < span) (now : Instant) :
    x.offered ⟨message, .request (some (call, span))⟩ true now =
      (x, .waiting (.blocked (.reply
        ⟨call, message.header.key, span, now.after? span, false⟩))) := by
  have early : hasCome (now.after? span) now = false := by
    unfold hasCome
    cases later : now.after? span with
    | none => rfl
    | some deadline =>
        obtain ⟨-, rfl⟩ := Instant.after?_eq_some_iff.mp later
        exact decide_eq_false (Nat.not_le.mpr (Nat.lt_add_of_pos_right positive))
  simp only [offered, if_true, requestAccepted, pollReply, nothing, early, Bool.false_eq_true,
    if_false]

/-- A caller for whom the response is there already does not wait. -/
theorem offered_delivered {message response : Message} {call : CallId} {span : Span}
    (delivered : x.awaited.mailFor call = .delivered response) (now : Instant) :
    x.offered ⟨message, .request (some (call, span))⟩ true now =
      ({ x with awaited := x.awaited.forget call }, .finished (.replied (.ok response))) := by
  simp only [offered, if_true, requestAccepted, pollReply, delivered]
  rfl

/-- A caller for whom nothing is there yet goes on waiting, as long as there is time left. -/
theorem poll_early {wait : ReplyWait} (nothing : x.awaited.mailFor wait.call = .nothing)
    {now : Instant} (early : hasCome wait.deadline now = false) (first : wait.second = false) :
    x.poll (.reply wait) now = (x, .waiting (.blocked (.reply wait))) := by
  simp only [poll, pollReply, nothing, first, early, Bool.false_eq_true, if_false]

theorem poll_delivered {wait : ReplyWait} {response : Message}
    (delivered : x.awaited.mailFor wait.call = .delivered response) (now : Instant) :
    x.poll (.reply wait) now =
      ({ x with awaited := x.awaited.forget wait.call }, .finished (.replied (.ok response))) := by
  simp only [poll, pollReply, delivered]
  rfl

end Exchange

/-! ### Requests that the transport accepts -/

namespace Session

/-- A request is sent, and the transport accepts it. -/
theorem Reachable.sends {settings : Settings} {s : Session} (reached : Reachable settings s)
    {handle : Handle} {command : Command} {r : Registration}
    (found : s.exchange.directory.find? handle = some r)
    (within : command < r.descriptor.commands)
    (idle : (s.exchange.ledger.slotAt handle command).outgoing.pending = false)
    (timeout : Option Span) :
    ∃ s', Reachable settings s' ∧
      s'.exchange = { s.exchange with
        ledger := s.exchange.ledger.withRequest handle command timeout 0 } ∧
      s'.tasks = s.tasks ∧
      s'.history.ended = s.history.ended ∧
      s'.history.sent handle command =
        (s.started, ⟨handle, command,
          (s.exchange.ledger.slotAt handle command).nextTransaction⟩) ::
          s.history.sent handle command ∧
      s'.history.begun =
        (s.started, ⟨handle, command,
          (s.exchange.ledger.slotAt handle command).nextTransaction⟩) :: s.history.begun := by
  have wf := reached.accounted.wellFormed
  obtain ⟨s₁, s₂, task, reached₂, -, -, exchange₁, exchange₂, history₂, tasks₂, -⟩ :=
    reached.startsAndResumes (.sendWithTimeout handle command [] timeout) 0 (.transport true) 0
      (Exchange.start_sendWithTimeout found within idle [] timeout 0) rfl
  have wf₁ := Ledger.wellFormed_withRequest wf handle command timeout 0
  have alike := Ledger.SendsAlike.refl (s.exchange.ledger.withRequest handle command timeout 0)
  obtain ⟨e₁, e₂, history, operation, steady₁, steady₂, begun₁, ended₁, begun₂, ended₂⟩ :
      ∃ e₁ e₂ : Entry, s₂.history = e₂ :: e₁ :: s.history ∧ e₁.operation = s.started ∧
        e₁.restarts handle = false ∧ e₂.restarts handle = false ∧
        e₁.begun = [⟨handle, command,
          (s.exchange.ledger.slotAt handle command).nextTransaction⟩] ∧
        e₁.ended = [] ∧ e₂.begun = [] ∧ e₂.ended = [] := by
    refine ⟨_, _, history₂, rfl, rfl, rfl, Ledger.begun_withRequest wf idle timeout 0,
      Ledger.ended_withRequest wf idle timeout 0, ?_, ?_⟩
    · show s₁.exchange.ledger.begun _ = []
      rw [exchange₁]
      exact alike.begun_eq wf₁
    · show s₁.exchange.ledger.ended _ = []
      rw [exchange₁]
      exact alike.ended_eq wf₁
  refine ⟨s₂, reached₂, exchange₂, tasks₂, ?_, ?_, ?_⟩
  · rw [history, History.ended, History.ended, ended₁, ended₂]
    rfl
  · rw [history, History.sent_of_apart steady₂ (by simp [begun₂]), ← operation]
    exact History.sent_of_begun steady₁ begun₁
  · rw [history, History.begun, History.begun, begun₁, begun₂, operation]
    rfl

/-- The link is reset. -/
theorem Reachable.resets {settings : Settings} {s : Session} (reached : Reachable settings s) :
    ∃ s', Reachable settings s' ∧
      s'.exchange = { s.exchange with ledger := .empty, awaited := s.exchange.awaited.releaseAll } ∧
      (∀ task ∈ s.tasks, task ∈ s'.tasks) ∧
      (∀ handle command, s'.history.sent handle command = []) ∧
      s'.history.begun = s.history.begun := by
  obtain ⟨s', reached', exchange, history, tasks, -⟩ := reached.starts .reset 0 rfl
  refine ⟨s', reached', ?_, ?_, ?_, ?_⟩
  · rw [exchange]
    exact (plain_announce _ .reset _).1
  · intro task mem
    rw [tasks]
    exact List.mem_append_right _ mem
  · intro handle command
    rw [history]
    exact History.sent_of_restarts rfl
  · rw [history, History.begun]
    have forgotten : (s.exchange.start .reset 0).1.ledger = .empty :=
      congrArg Exchange.ledger (plain_announce _ .reset _).1
    show (s.exchange.ledger.begun (s.exchange.start .reset 0).1.ledger).map _ ++ _ = _
    rw [forgotten, Ledger.begun_empty]
    rfl

end Session

/-! ### One endpoint -/

/-- What an endpoint with a single command says about itself. -/
def Descriptor.single (role : Role) : Descriptor :=
  { role, uuid := Uuid.ofNat 1, version := ⟨1, 0, 0⟩, commands := 1 }

/-- Its registration at the first negotiated handle. -/
def Registration.single (role : Role) : Registration :=
  { handle := 16, serial := 0, descriptor := .single role, endpoint := .custom 0 }

theorem Session.reachable_single (role : Role) :
    ∃ s, Session.Reachable {} s ∧ s.exchange.directory.find? 16 = some (.single role) ∧
      s.exchange.ledger = .empty ∧ s.exchange.awaited = {} ∧ s.tasks = [] ∧
      s.history.begun = [] := by
  obtain ⟨s, reached, exchange, history, tasks, -⟩ :=
    Reachable.fresh.starts (.registerAt 16 (.single role) (.custom 0)) 0 rfl
  refine ⟨s, reached, ?_, ?_, ?_, ?_, ?_⟩
  · rw [exchange]; cases role <;> rfl
  · rw [exchange]; cases role <;> rfl
  · rw [exchange]; cases role <;> rfl
  · rw [tasks]; cases role <;> rfl
  · rw [history]; cases role <;> rfl

end HubRelay
