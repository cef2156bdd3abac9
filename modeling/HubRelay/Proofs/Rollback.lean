import HubRelay.Proofs.Expiry
import HubRelay.Proofs.Session.Alone
import HubRelay.Proofs.Session.Expecting
import Mathlib.Data.List.Permutation

/-!
Calls that are turned down leave no trace.

A request takes its slot, its caller a place in the table and its deadline a part in the next
timeout before the transport has seen the frame. `Exchange.Carries` lists how far a call can come
when nothing comes between, and what it has changed by then; `Exchange.takenBack` is the exchange
after a refusal. Of a refused request its number remains, and when it was sent. Nobody waits under
the key of a request that is still to be sent, unless an endpoint is being called
(`Session.Reachable.unawaited`).
-/

namespace HubRelay

/-- The reasons for which a request is not sent. -/
inductive ExchangeError.TurnsDown : ExchangeError → Prop where
  | unknown {handle : Handle} : TurnsDown (.unknownHandle handle)
  | beyond {handle : Handle} {command : Command} {commands : UInt16} :
      TurnsDown (.invalidCommand handle command commands)
  | busy {handle : Handle} {command : Command} {transaction : TransactionId} :
      TurnsDown (.busy handle command transaction)
  | refused {handle : Handle} {command : Command} : TurnsDown (.refused handle command)

/-- The error that a sender is told of. -/
def Outcome.error? : Outcome → Option ExchangeError
  | .sent (.error error) | .replied (.error error) => some error
  | _ => none

/-- A failed order reports its error, whichever way it was placed. -/
theorem Order.error?_fail (order : Order) (error : ExchangeError) :
    (order.fail error).error? = some error := by
  unfold Order.fail
  cases order.manner <;> rfl

/-- The outcome of a failed operation names its error. -/
theorem Operation.Sends.error? {handle : Handle} {operation : Operation}
    {fail : ExchangeError → Outcome} (sends : operation.Sends handle fail)
    (error : ExchangeError) : (fail error).error? = some error := by
  cases sends <;> rfl

/-! ### Pending requests -/

namespace Ledger

variable {l later : Ledger}

/-- The same requests are pending, under the same numbers and until the same instants. This leaves
open how far the numbers of a slot have come, and whether a slot exists that has nothing to show. -/
def PendsAlike (l later : Ledger) : Prop :=
  ∀ handle command (o : Outgoing), o.pending = true →
    ((later.slotAt handle command).outgoing = o ↔ (l.slotAt handle command).outgoing = o)

/-- A ledger pends like itself. -/
theorem PendsAlike.refl (l : Ledger) : l.PendsAlike l := fun _ _ _ _ => Iff.rfl

/-- The deadlines of a ledger are those of its pending slots. -/
theorem mem_deadlines_iff_slotAt (wf : l.WellFormed) {deadline : Instant} :
    deadline ∈ l.deadlines ↔ ∃ handle command,
      (l.slotAt handle command).outgoing.pending = true ∧
        (l.slotAt handle command).outgoing.deadline = some deadline := by
  rw [mem_deadlines]
  constructor
  · rintro ⟨s, mem, pending⟩
    refine ⟨s.handle, s.command, ?_⟩
    rw [slotAt, slot?_of_mem wf mem]
    exact pending
  · rintro ⟨handle, command, pending⟩
    rw [slotAt] at pending
    cases found : l.slot? handle command with
    | none =>
        rw [found] at pending
        cases pending.1
    | some s =>
        rw [found] at pending
        exact ⟨s, ((slot?_eq_some_iff wf).mp found).1, pending⟩

/-- The next deadline is that of a pending request. -/
theorem PendsAlike.nextDeadline_eq (alike : l.PendsAlike later) (wf : l.WellFormed)
    (wf' : later.WellFormed) : later.nextDeadline = l.nextDeadline := by
  have same (deadline : Instant) : deadline ∈ later.deadlines ↔ deadline ∈ l.deadlines := by
    rw [mem_deadlines_iff_slotAt wf, mem_deadlines_iff_slotAt wf']
    refine exists_congr fun handle => exists_congr fun command => ?_
    constructor
    · rintro ⟨pending, set⟩
      rw [(alike handle command _ pending).mp rfl]
      exact ⟨pending, set⟩
    · rintro ⟨pending, set⟩
      rw [(alike handle command _ pending).mpr rfl]
      exact ⟨pending, set⟩
  refine Option.ext fun deadline => ?_
  rw [nextDeadline, nextDeadline, List.min?_eq_some_iff, List.min?_eq_some_iff]
  simp only [same]

end Ledger

/-! ### Taking a request back -/

/-- A new caller that is sent away at once leaves nothing behind but that its number is given out;
whoever waited under its key is gone. -/
theorem Awaited.forget_release_enlist {a : Awaited} (numbered : a.Numbered) (key : RequestKey) :
    ((a.enlist key).2.release key).forget a.calls =
      { a.release key with calls := a.calls + 1 } := by
  have apart : ∀ w ∈ (a.release key).waiting, (w.1 == key) = false := fun w mem =>
    (mem_waiting_releaseWhere.mp mem).2
  have stay : (a.release key).waiting.filter (fun w => !(w.1 == key)) = (a.release key).waiting :=
    List.filter_eq_self.mpr fun w mem => by simp [apart w mem]
  have none : (a.release key).waiting.filter (fun w => w.1 == key) = [] :=
    List.filter_eq_nil_iff.mpr fun w mem => by simp [apart w mem]
  have old : (a.release key).mail.filter (fun m => m.1 != a.calls) = (a.release key).mail :=
    List.filter_eq_self.mpr fun m mem =>
      bne_iff_ne.mpr (Nat.ne_of_lt ((numbered.release key).mail m mem))
  have waiting : (((a.enlist key).2.release key).forget a.calls).waiting =
      (a.release key).waiting := by
    show ((a.release key).waiting ++ [(key, a.calls)]).filter (fun w => !(w.1 == key)) = _
    rw [List.filter_append, stay]
    simp
  have mail : (((a.enlist key).2.release key).forget a.calls).mail = (a.release key).mail := by
    have leaving : ((a.release key).waiting ++ [(key, a.calls)]).filter (fun w => w.1 == key) =
        [(key, a.calls)] := by
      rw [List.filter_append, none]
      simp
    show ((a.release key).mail ++
      (((a.release key).waiting ++ [(key, a.calls)]).filter (fun w => w.1 == key)).map
        (fun w : RequestKey × CallId => (w.2, (.none : Option Message)))).filter
          (fun m => m.1 != a.calls) = _
    rw [leaving, List.filter_append, old]
    simp
  exact congrArg₂ (fun waiting mail => (⟨waiting, mail, a.calls + 1⟩ : Awaited)) waiting mail

namespace Exchange

variable {x y : Exchange} {operation : Operation} {order : Order} {role : Role} {r : Registration}
  {now : Instant} {offers : List Offering} {activity : Activity}

/-- The exchange once the request of an order was refused and taken back. Its number is used up, and
its slot keeps the instant at which it was sent. -/
def takenBack (x : Exchange) (order : Order) (now : Instant) : Exchange :=
  let y := x.asking order now
  { y with
    ledger := y.ledger.withoutRequest order.handle order.command
    awaited :=
      match order.manner with
      | .awaiting _ => (y.awaited.release (x.keyFor order)).forget x.awaited.calls
      | _ => y.awaited.release (x.keyFor order) }

/-- The request under way leaves the ledger in order. -/
theorem wellFormed_asking (wf : x.ledger.WellFormed) :
    (x.asking order now).ledger.WellFormed :=
  Ledger.wellFormed_withRequest wf _ _ _ _

/-- It is awaited under the number that the slot had next. -/
theorem awaits_asking (wf : x.ledger.WellFormed) :
    (x.asking order now).ledger.awaits (x.keyFor order) = true := by
  show (x.ledger.withRequest order.handle order.command order.timeout now).awaits _ = true
  rw [Ledger.awaits_withRequest wf]
  simp [keyFor]

/-- A refusal of the transport takes the request back and reports the refusal. -/
theorem offered_asked_false (wf : x.ledger.WellFormed) (later : Instant) :
    (x.asking order now).offered (x.asked order role) false later =
      (x.takenBack order now,
        .finished (order.fail (.refused order.handle order.command))) := by
  have aborted := Ledger.abort_eq (x.asking order now).ledger (x.keyFor order)
  rw [if_pos (awaits_asking wf)] at aborted
  simp only [keyFor] at aborted
  cases manner : order.manner with
  | once | patient | awaiting =>
      simp only [offered, asked, callerFor, manner, Bool.false_eq_true, if_false, requestRefused,
        Order.request, keyFor, aborted]
      simp only [takenBack, asking, manner, Order.fail, keyFor]
      rfl

/-- If the transport takes it, a caller begins to wait and others are done. -/
theorem offered_asked_true (later : Instant) :
    (x.asking order now).offered (x.asked order role) true later =
      match order.manner with
      | .awaiting span =>
          (x.asking order now).pollReply
            ⟨x.awaited.calls, x.keyFor order, span, later.after? span, false⟩ later
      | _ => (x.asking order now).finish (.sent (.ok (x.keyFor order).transaction)) := by
  cases manner : order.manner with
  | once | patient | awaiting =>
      simp only [offered, asked, callerFor, manner, if_true, requestAccepted]
      rfl

/-- Of a request taken back a spent number remains, and nothing else. -/
theorem slotAt_takenBack (wf : x.ledger.WellFormed) (order : Order) (now : Instant) (h : Handle)
    (c : Command) :
    (x.takenBack order now).ledger.slotAt h c =
      if order.handle = h ∧ order.command = c then
        { x.ledger.slotAt h c with
          nextTransaction := (x.keyFor order).transaction + 1
          outgoing := { transaction := (x.keyFor order).transaction, sentAt := some now } }
      else x.ledger.slotAt h c := by
  show ((x.asking order now).ledger.withoutRequest order.handle order.command).slotAt h c = _
  rw [Ledger.slotAt_withoutRequest (wellFormed_asking wf), asking, Ledger.slotAt_withRequest wf]
  split
  · rename_i here
    obtain ⟨rfl, rfl⟩ := here
    rfl
  · rfl

/-- The slot has become known, if it was not. -/
theorem knows_takenBack (wf : x.ledger.WellFormed) (order : Order) (now : Instant) (h : Handle)
    (c : Command) :
    (x.takenBack order now).ledger.knows h c = true ↔
      (order.handle = h ∧ order.command = c) ∨ x.ledger.knows h c = true := by
  show ((x.asking order now).ledger.withoutRequest order.handle order.command).knows h c = true ↔ _
  rw [Ledger.knows_withoutRequest (wellFormed_asking wf), asking, Ledger.knows_withRequest wf]

/-- What pends afterwards is what had been pending, since the slot was idle. -/
theorem pendsAlike_takenBack (wf : x.ledger.WellFormed)
    (idle : (x.ledger.slotAt order.handle order.command).outgoing.pending = false) :
    x.ledger.PendsAlike (x.takenBack order now).ledger := by
  intro h c o pending
  rw [slotAt_takenBack wf]
  split
  · rename_i here
    obtain ⟨rfl, rfl⟩ := here
    constructor
    · rintro rfl
      cases pending
    · rintro rfl
      rw [idle] at pending
      cases pending
  · rfl

/-- What was received stays as it was. -/
theorem receivesAlike_takenBack (wf : x.ledger.WellFormed) :
    x.ledger.ReceivesAlike (x.takenBack order now).ledger := by
  intro h c
  rw [slotAt_takenBack wf]
  split <;> rfl

/-- Only who waits under the key of a refused request is sent away with it. -/
theorem awaited_takenBack (numbered : x.awaited.Numbered) (order : Order) (now : Instant) :
    ∃ calls, (x.takenBack order now).awaited =
      { x.awaited.release (x.keyFor order) with calls := calls } := by
  unfold takenBack asking
  cases manner : order.manner with
  | once | patient => exact ⟨x.awaited.calls, rfl⟩
  | awaiting span => exact ⟨_, Awaited.forget_release_enlist numbered (x.keyFor order)⟩

/-! ### How far a call comes -/

/-- How far an operation that sends a request has come since the exchange was `x`, if nothing has
come between: the exchange that it has left, where it stands, and the frames that it has offered. -/
inductive Carries (x : Exchange) (operation : Operation) : Segment → List Offering → Prop where
  | declined {outcome : Outcome} :
      (∀ handle command, outcome.error? ≠ some (.refused handle command)) →
      Carries x operation (x, .finished outcome) []
  | waits {order : Order} {r : Registration} {deadline : Instant} :
      x.Orders operation order r →
      Carries x operation
        (x, .waiting (.blocked (.slot ⟨r.descriptor.role, order, deadline⟩))) []
  | offered {order : Order} {r : Registration} {sentAt : Instant} :
      x.Orders operation order r →
      (x.ledger.slotAt order.handle order.command).outgoing.pending = false →
      Carries x operation
        (x.asking order sentAt, .waiting (.offering (x.asked order r.descriptor.role)))
        [x.asked order r.descriptor.role]
  | refused {order : Order} {r : Registration} {sentAt : Instant} :
      x.Orders operation order r →
      (x.ledger.slotAt order.handle order.command).outgoing.pending = false →
      Carries x operation
        (x.takenBack order sentAt, .finished (order.fail (.refused order.handle order.command)))
        [x.asked order r.descriptor.role]
  | awaits {order : Order} {r : Registration} {y : Exchange} {wait : ReplyWait} :
      x.Orders operation order r → y.directory = x.directory → y.ledger.WellFormed →
      wait.key = x.keyFor order →
      Carries x operation (y, .waiting (.blocked (.reply wait)))
        [x.asked order r.descriptor.role]
  | through {y : Exchange} {outcome : Outcome} {offers : List Offering} :
      (∀ error, outcome.error? = some error → ¬ error.TurnsDown) →
      Carries x operation (y, .finished outcome) offers

/-- The frame offered is the one ordered, under the number of the request. -/
theorem carries_beginRequest (orders : x.Orders operation order r) (now : Instant) :
    x.Carries operation (x.beginRequest r.descriptor.role order now)
      (x.beginRequest r.descriptor.role order now).2.offers := by
  cases pending : (x.ledger.slotAt order.handle order.command).outgoing.pending with
  | false =>
      rw [beginRequest_of_idle pending]
      exact .offered orders pending
  | true =>
      rw [beginRequest, Ledger.begin_eq, if_pos pending]
      refine .declined fun handle command told => ?_
      rw [Order.error?_fail] at told
      cases told

/-- A caller that waits for the slot offers its frame when the slot is free. -/
theorem carries_pollSlot (orders : x.Orders operation order r) (deadline now : Instant) :
    x.Carries operation (x.pollSlot ⟨r.descriptor.role, order, deadline⟩ now)
      (x.pollSlot ⟨r.descriptor.role, order, deadline⟩ now).2.offers := by
  unfold pollSlot
  split
  · exact .waits orders
  · exact carries_beginRequest orders now

/-- An order offers its own frame if it offers one. -/
theorem carries_place (ordered : operation.order? x = some order) (now : Instant) :
    x.Carries operation (x.place order now) (x.place order now).2.offers := by
  have fails (error : ExchangeError) (unsent : ∀ handle command, error ≠ .refused handle command) :
      x.Carries operation (x.finish (order.fail error)) [] := by
    refine .declined fun handle command => ?_
    rw [Order.error?_fail]
    exact fun same => unsent handle command (Option.some.inj same)
  unfold place
  cases found : x.directory.find? order.handle with
  | none => exact fails _ nofun
  | some r =>
      by_cases beyond : r.descriptor.commands ≤ order.command
      · simp only [beyond, if_true]
        exact fails _ nofun
      · have orders : x.Orders operation order r := ⟨ordered, found, UInt16.not_le.mp beyond⟩
        simp only [beyond, if_false]
        cases manner : order.manner with
        | once | awaiting => exact carries_beginRequest orders now
        | patient span =>
            simp only
            cases now.after? span with
            | none => exact .declined fun _ _ => nofun
            | some deadline => exact carries_pollSlot orders deadline now

/-- Each operation that sends offers the frame that it was given. -/
theorem carries_start {handle : Handle} {fail : ExchangeError → Outcome}
    (sends : operation.Sends handle fail) (now : Instant) :
    x.Carries operation (x.start operation now) (x.start operation now).2.offers := by
  cases ordered : operation.order? x with
  | some order =>
      rw [start_of_order ordered]
      exact carries_place ordered now
  | none =>
      have gone : x.directory.find? handle = none := by
        cases sends with
        | send | sendPatiently =>
            cases found : x.directory.find? handle with
            | none => rfl
            | some r =>
                simp [Operation.order?, requestTimeout, found, Except.toOption] at ordered
        | sendWithTimeout | sendAndAwait => cases ordered
      rw [start_of_unregistered sends gone]
      refine .declined fun handle command told => ?_
      rw [sends.error?] at told
      cases told

/-- A caller whose time is over is told so as long as its endpoint stands. -/
theorem exists_timeoutReply (y : Exchange) (wf : y.ledger.WellFormed) {key : RequestKey}
    (stands : y.directory.find? key.handle = some r) :
    ∃ m, y.timeoutReply (y.ledger.slotAt key.handle key.command).lapsed = .ok m := by
  have here : (y.ledger.slotAt key.handle key.command).lapsed.handle = key.handle :=
    (Ledger.slotAt_pair wf key.handle key.command).1
  rw [timeoutReply, here, stands]
  exact ⟨_, rfl⟩

/-- Once its request is accepted a caller is not turned down any more. -/
theorem carries_pollReply (orders : x.Orders operation order r)
    (same : y.directory = x.directory) (wf : y.ledger.WellFormed) {wait : ReplyWait}
    (key : wait.key = x.keyFor order) (now : Instant) :
    x.Carries operation (y.pollReply wait now)
      ((y.pollReply wait now).2.offers ++ [x.asked order r.descriptor.role]) := by
  have replied := replied_pollReply y now (.goesOn (.blocked (.reply wait)) .woken) wait
  generalize y.pollReply wait now = segment at replied
  cases replied with
  | delivered => exact .through nofun
  | waits | again => exact .awaits orders same wf key
  | released | overdue =>
      refine .through fun error told turnedDown => ?_
      obtain rfl := Option.some.inj told
      cases turnedDown
  | gaveUp =>
      have stands : y.directory.find? wait.key.handle = some r := by
        rw [same, key]
        exact orders.found
      obtain ⟨m, told⟩ := y.exists_timeoutReply wf stands
      rw [told]
      exact .through nofun

/-- What a call has come to it goes on from. -/
theorem Carries.proceed (carries : x.Carries operation (y, .waiting activity) offers)
    (wf : x.ledger.WellFormed) {reply : Reply} {segment : Segment}
    (proceeds : y.proceed activity reply now = some segment) :
    x.Carries operation segment (segment.2.offers ++ offers) := by
  cases carries with
  | waits orders =>
      cases reply with
      | woken =>
          obtain rfl := Option.some.inj proceeds
          rw [List.append_nil]
          exact carries_pollSlot orders _ now
      | _ => cases proceeds
  | @offered order r sentAt orders idle =>
      cases reply with
      | transport accepted =>
          obtain rfl := Option.some.inj proceeds
          cases accepted with
          | false =>
              rw [offered_asked_false wf]
              exact .refused orders idle
          | true =>
              have same : (x.asking order sentAt).directory = x.directory := rfl
              rw [offered_asked_true]
              cases order.manner with
              | once | patient => exact .through nofun
              | awaiting span =>
                  exact carries_pollReply orders same (wellFormed_asking wf) rfl now
      | _ => cases proceeds
  | awaits orders same wf' key =>
      cases reply with
      | woken =>
          obtain rfl := Option.some.inj proceeds
          exact carries_pollReply orders same wf' key now
      | _ => cases proceeds

end Exchange

/-! ### Sending again -/

/-- How an operation goes on when the transport has accepted its request: the sender is told the
number, or waits for the response. A caller that leaves no time at all is told that none came. -/
inductive Progress.Accepted (key : RequestKey) : Progress → Prop where
  | sent : Accepted key (.finished (.sent (.ok key.transaction)))
  | waits {wait : ReplyWait} : wait.key = key → Accepted key (.waiting (.blocked (.reply wait)))
  | replied {m : Message} : Accepted key (.finished (.replied (.ok m)))

namespace Exchange

variable {x y : Exchange} {operation : Operation} {order : Order} {r : Registration} {now : Instant}

/-- An operation that starts now sends its request under this key, and it is the transport alone
that can still turn it down. So a call on an idle slot of a registered endpoint is not turned down
for any other reason. -/
def TakesUp (x : Exchange) (operation : Operation) (now : Instant) (key : RequestKey) : Prop :=
  ∃ y o, x.start operation now = (y, .waiting (.offering o)) ∧ o.message.header.key = key ∧
    y.ledger.awaits key = true ∧ ∀ later, (y.offered o true later).2.Accepted key

/-- An order for an idle slot is taken up at once, unless its patience cannot be told in instants.
-/
theorem Orders.takesUp (orders : x.Orders operation order r) (wf : x.ledger.WellFormed)
    (numbered : x.awaited.Numbered)
    (idle : (x.ledger.slotAt order.handle order.command).outgoing.pending = false)
    (patience : ∀ span, order.manner = .patient span →
      ∃ deadline, now.after? span = some deadline) :
    x.TakesUp operation now (x.keyFor order) := by
  refine ⟨_, _, start_of_idle orders idle patience, rfl, awaits_asking wf, fun later => ?_⟩
  rw [offered_asked_true]
  cases manner : order.manner with
  | once | patient => exact .sent
  | awaiting span =>
      simp only
      have nothing : (x.asking order now).awaited.mailFor x.awaited.calls = .nothing := by
        simp only [asking, manner]
        exact numbered.mailFor_enlist (x.keyFor order)
      let wait : ReplyWait := ⟨x.awaited.calls, x.keyFor order, span, later.after? span, false⟩
      have replied := replied_pollReply (x.asking order now) later
        (.goesOn (.blocked (.reply wait)) .woken) wait
      generalize (x.asking order now).pollReply _ later = segment at replied
      cases replied with
      | delivered mail | released mail =>
          rw [nothing] at mail
          cases mail
      | waits | again => exact .waits rfl
      | overdue _ lost =>
          rw [awaits_asking wf] at lost
          rcases lost with second | gone
          · cases second
          · cases gone
      | gaveUp =>
          have stands : (x.asking order now).directory.find? (x.keyFor order).handle = some r :=
            orders.found
          obtain ⟨m, told⟩ := (x.asking order now).exists_timeoutReply (wellFormed_asking wf) stands
          rw [told]
          exact .replied

/-- Whether an operation gives an order hangs on the endpoints and the settings alone. -/
theorem Orders.of_same (orders : x.Orders operation order r) (settings : y.settings = x.settings)
    (directory : y.directory = x.directory) : y.Orders operation order r where
  ordered := by
    rw [← orders.ordered]
    cases operation <;> simp only [Operation.order?, requestTimeout, settings, directory]
  found := by
    rw [directory]
    exact orders.found
  within := orders.within

end Exchange

/-! ### In every run -/

namespace Session

variable {settings : Settings} {s s' : Session} {operation : Operation} {order : Order}
  {r : Registration} {now : Instant}

/-- Whenever a request can begin, the transport may refuse it. -/
theorem exists_refused (wf : s.exchange.ledger.WellFormed)
    (orders : s.exchange.Orders operation order r)
    (idle : (s.exchange.ledger.slotAt order.handle order.command).outgoing.pending = false)
    (patience : ∀ span, order.manner = .patient span →
      ∃ deadline, now.after? span = some deadline) (later : Instant) :
    ∃ s', s.run (s.alone operation now [(.transport false, later)]) = some s' ∧
      s'.exchange = s.exchange.takenBack order now ∧
      s'.history.head?.map Entry.progress =
        some (.finished (order.fail (.refused order.handle order.command))) := by
  have starts := Exchange.start_of_idle orders idle patience
  have alone := s.alone_start operation now
  rw [starts] at alone
  have refused : (s.exchange.asking order now).proceed
      (.offering (s.exchange.asked order r.descriptor.role)) (.transport false) later = some _ :=
    congrArg some (Exchange.offered_asked_false wf later)
  obtain ⟨s', stepped, exchange, last⟩ := alone.exists_step rfl refused
  refine ⟨s', ?_, exchange, last⟩
  have ran : (s.start operation now).run [.resume s.started (.transport false) later] = some s' :=
    congrArg (Option.bind · some) stepped
  exact ran

/-- No endpoint is being called. So it is whenever no operation is running, for then all that are
under way are callers that are blocked. Without it, a caller whose request has just been answered
may still be in the table, and is sent away with a refused request under the same number
(`failed_sends_take_callers_along`). -/
def Quiet (s : Session) : Prop := ∀ task ∈ s.tasks, ∀ serving, task.activity ≠ .serving serving

/-- While no endpoint is being called nobody waits under the key of a request that is still to be
sent. -/
theorem Reachable.unawaited (reached : Reachable settings s) (quiet : s.Quiet)
    (idle : (s.exchange.ledger.slotAt order.handle order.command).outgoing.pending = false) :
    ∀ w ∈ s.exchange.awaited.waiting, w.1 ≠ s.exchange.keyFor order := by
  rintro w mem same
  rcases reached.expecting.expected w mem with pending | ⟨task, under, owed⟩
  · rw [same] at pending
    have slot := (Ledger.awaits_of_slotAt.mp pending).1
    rw [Exchange.keyFor, idle] at slot
    cases slot
  · cases activity : task.activity with
    | serving serving => exact quiet task under serving activity
    | offering | announcing | blocked =>
        rw [activity] at owed
        cases owed

/-- What is left of a request that the transport refused: its slot has given a number away and knows
when the request was sent. -/
structure TakesBack (s s' : Session) (operation : Operation) (order : Order) (r : Registration) :
    Prop where
  /-- The operation was one that sends this request for this registration. -/
  orders : s.exchange.Orders operation order r
  /-- Its slot was free. -/
  idle : (s.exchange.ledger.slotAt order.handle order.command).outgoing.pending = false
  /-- The transport has seen this one frame. -/
  offered : ∃ caller, s'.history.offers =
    ⟨order.request r.descriptor.role (s.exchange.keyFor order).transaction, .request caller⟩ ::
      s.history.offers
  /-- Settings and directory are as before. -/
  settings : s'.exchange.settings = s.exchange.settings
  directory : s'.exchange.directory = s.exchange.directory
  /-- The slot may have come into use with this request; no other has. -/
  known : ∀ handle command, s'.exchange.ledger.knows handle command = true ↔
    (order.handle = handle ∧ order.command = command) ∨
      s.exchange.ledger.knows handle command = true
  /-- No other slot has changed. -/
  slots : ∃ sentAt, ∀ handle command, s'.exchange.ledger.slotAt handle command =
    if order.handle = handle ∧ order.command = command then
      { s.exchange.ledger.slotAt handle command with
        nextTransaction := (s.exchange.keyFor order).transaction + 1
        outgoing :=
          { transaction := (s.exchange.keyFor order).transaction, sentAt := some sentAt } }
    else s.exchange.ledger.slotAt handle command
  /-- The next attempt is taken up, under the number after the refused one. -/
  retried : ∀ now, (∀ span, order.manner = .patient span →
      ∃ deadline, now.after? span = some deadline) →
    s'.exchange.TakesUp operation now
      { s.exchange.keyFor order with transaction := (s.exchange.keyFor order).transaction + 1 }
  /-- That is another number than the refused one had. -/
  fresh : (s.exchange.keyFor order).transaction + 1 ≠ (s.exchange.keyFor order).transaction

/-- What is left of a call that was turned down with this error. Only a refusal by the transport
leaves anything at all: the number that the request was given, and a slot that may not have been in
use. -/
structure Spared (s s' : Session) (operation : Operation) (error : ExchangeError) : Prop where
  /-- The same requests are pending as before, with the same numbers and deadlines. -/
  pending : s.exchange.ledger.PendsAlike s'.exchange.ledger
  /-- The next timeout is the same. -/
  nextTimeout : s'.exchange.nextTimeout = s.exchange.nextTimeout
  /-- The same requests from the other side wait for their answers. -/
  incoming : s.exchange.ledger.ReceivesAlike s'.exchange.ledger
  /-- The operations under way are the same. -/
  tasks : s'.tasks = s.tasks
  /-- While no endpoint is being called, everybody who waits goes on waiting, and everybody for whom
  something has come still has it. -/
  callers : s.Quiet → s'.exchange.awaited.waiting = s.exchange.awaited.waiting ∧
    s'.exchange.awaited.mail = s.exchange.awaited.mail
  /-- Unless the transport has refused a frame, nothing has changed at all and nothing was offered.
  -/
  unsent : (∀ handle command, error ≠ .refused handle command) →
    s'.exchange = s.exchange ∧ s'.history.offers = s.history.offers
  /-- If it has refused one, the request was begun and has been taken back. -/
  refused : ∀ handle command, error = .refused handle command →
    ∃ order r, order.handle = handle ∧ order.command = command ∧ s.TakesBack s' operation order r

/-- A failure before anything was begun leaves the session as it was. -/
theorem spared_of_same {error : ExchangeError} (exchange : s'.exchange = s.exchange)
    (offers : s'.history.offers = s.history.offers) (tasks : s'.tasks = s.tasks)
    (unsent : ∀ handle command, error ≠ .refused handle command) :
    s.Spared s' operation error where
  pending := by
    rw [exchange]
    exact .refl _
  nextTimeout := by rw [exchange]
  incoming := by
    rw [exchange]
    exact .refl _
  tasks := tasks
  callers := fun _ => by
    rw [exchange]
    exact ⟨rfl, rfl⟩
  unsent := fun _ => ⟨exchange, offers⟩
  refused := fun handle command same => absurd same (unsent handle command)

section Refused

variable (reached : Reachable settings s) (reached' : Reachable settings s') {sentAt : Instant}
  (orders : s.exchange.Orders operation order r)
  (idle : (s.exchange.ledger.slotAt order.handle order.command).outgoing.pending = false)
  (exchange : s'.exchange = s.exchange.takenBack order sentAt)
  (offers : s'.history.offers = s.exchange.asked order r.descriptor.role :: s.history.offers)

include reached reached' orders idle exchange offers

/-- A refusal by the transport leaves a spent number behind, and no request. -/
theorem takesBack_of_refused : s.TakesBack s' operation order r := by
  have known := Exchange.knows_takenBack reached.accounted.wellFormed order sentAt
  have slots := Exchange.slotAt_takenBack reached.accounted.wellFormed order sentAt
  rw [← exchange] at known slots
  have here := slots order.handle order.command
  rw [if_pos ⟨rfl, rfl⟩] at here
  have settings : s'.exchange.settings = s.exchange.settings := by
    rw [exchange]
    rfl
  have directory : s'.exchange.directory = s.exchange.directory := by
    rw [exchange]
    rfl
  refine
    { orders, idle, settings, directory, known
      offered := ⟨_, offers⟩
      slots := ⟨sentAt, slots⟩
      retried := ?_
      fresh := by simp }
  intro now patience
  have again := (orders.of_same settings directory).takesUp reached'.accounted.wellFormed
    reached'.numbered (by rw [here]) patience
  rw [Exchange.keyFor, here] at again
  exact again

/-- What was offered to the transport is the one trace of a request refused by it. -/
theorem spared_of_refused (tasks : s'.tasks = s.tasks) :
    s.Spared s' operation (.refused order.handle order.command) := by
  have wf := reached.accounted.wellFormed
  have pending : s.exchange.ledger.PendsAlike s'.exchange.ledger := by
    rw [exchange]
    exact Exchange.pendsAlike_takenBack wf idle
  refine
    { pending, tasks
      nextTimeout := pending.nextDeadline_eq wf reached'.accounted.wellFormed
      incoming := ?_
      callers := ?_
      unsent := fun sent => absurd rfl (sent _ _)
      refused := ?_ }
  · rw [exchange]
    exact Exchange.receivesAlike_takenBack wf
  · intro quiet
    obtain ⟨calls, awaited⟩ := Exchange.awaited_takenBack reached.numbered order sentAt
    rw [exchange, awaited, Awaited.release_of_unawaited (reached.unawaited quiet idle)]
    exact ⟨rfl, rfl⟩
  · rintro handle command ⟨⟩
    exact ⟨order, r, rfl, rfl, takesBack_of_refused reached reached' orders idle exchange offers⟩

end Refused

end Session

/-- A call that is turned down while nothing comes between leaves the pending requests with their
numbers and deadlines, the next timeout, the requests received and the callers as they were. Nothing
was sent but the frame that the transport refused, and of that one the number is used up.

All four ways to send a request are meant. That nothing comes between is said of the run
(`Session.alone`), in which only the answers to this operation occur. -/
theorem failed_sends_leave_no_trace {settings : Settings} {s s' : Session}
    (reached : Session.Reachable settings s) {operation : Operation} {handle : Handle}
    {fail : ExchangeError → Outcome} (sends : operation.Sends handle fail) {now : Instant}
    {answers : List (Reply × Instant)} (ran : s.run (s.alone operation now answers) = some s')
    {error : ExchangeError}
    (ends : s'.history.head?.map Entry.progress = some (.finished (fail error)))
    (turnedDown : error.TurnsDown) : s.Spared s' operation error := by
  have wf := reached.accounted.wellFormed
  obtain ⟨e, offers, alone, carries⟩ := Session.holds_alone (P := s.exchange.Carries operation)
    reached.orderly (Exchange.carries_start sends now) (fun carries => carries.proceed wf) ran
  have exchange := alone.exchange
  have tasks := alone.tasks
  have sent := alone.offers
  rw [alone.last] at ends
  have ended : e.progress = .finished (fail error) := Option.some.inj ends
  rw [Entry.tasks, ended] at tasks
  rw [ended] at carries
  have told := sends.error? error
  generalize fail error = outcome at carries told
  generalize e.after = y at carries exchange
  cases carries with
  | declined unsent =>
      refine Session.spared_of_same exchange sent tasks ?_
      rintro handle command rfl
      exact unsent handle command told
  | through lasts => exact absurd turnedDown (lasts error told)
  | @refused order r sentAt orders idle =>
      rw [Order.error?_fail] at told
      obtain rfl := Option.some.inj told
      exact Session.spared_of_refused reached (reached.run ran) orders idle exchange sent tasks

/-- An endpoint has sent the first of its two requests and waits for the response. -/
def Session.oneWaits : Option Session :=
  (Session.ofSettings {}).run
    [.start (.registerAt 16 { Descriptor.single .client with commands := 2 } (.custom 0)) 0,
      .start (.sendAndAwait 16 0 [] 20) 0, .resume 1 (.transport true) 0]

/-- The transport refuses the second request: who waits for the first response goes on waiting. -/
theorem failed_sends_leave_no_trace_waiting :
    ∃ s s' : Session, Session.Reachable {} s ∧ s.Quiet ∧
      s.run (s.alone (.sendAndAwait 16 1 [] 20) 5 [(.transport false, 6)]) = some s' ∧
      s'.history.head?.map Entry.progress = some (.finished (.replied (.error (.refused 16 1)))) ∧
      s.Spared s' (.sendAndAwait 16 1 [] 20) (.refused 16 1) ∧
      s'.exchange.awaited.waiting = [(⟨16, 0, 0⟩, 0)] := by
  obtain ⟨s, begun⟩ := Option.isSome_iff_exists.mp (by cbv : Session.oneWaits.isSome = true)
  have waiting : Session.oneWaits.map (·.exchange.awaited.waiting) = some [(⟨16, 0, 0⟩, 0)] := by
    cbv
  have blocked : Session.oneWaits.map (·.tasks.map Task.activity) =
      some [.blocked (.reply ⟨0, ⟨16, 0, 0⟩, 20, some 20, false⟩)] := by
    cbv
  have refused : (Session.oneWaits.bind fun s =>
      s.run (s.alone (.sendAndAwait 16 1 [] 20) 5 [(.transport false, 6)])).map
        (·.history.head?.map Entry.progress) =
      some (some (.finished (.replied (.error (.refused 16 1))))) := by
    cbv
  rw [begun] at waiting blocked refused
  obtain ⟨s', ran, ends⟩ := Option.map_eq_some_iff.mp refused
  have reached : Session.Reachable {} s := Session.Reachable.fresh.run begun
  have quiet : s.Quiet := by
    intro task mem serving activity
    have there : task.activity ∈ s.tasks.map Task.activity := List.mem_map_of_mem mem
    rw [(Option.some.inj blocked : s.tasks.map Task.activity = _), activity] at there
    cases List.mem_singleton.mp there
  have spared : s.Spared s' (.sendAndAwait 16 1 [] 20) (.refused 16 1) :=
    failed_sends_leave_no_trace reached .sendAndAwait ran ends .refused
  exact ⟨s, s', reached, quiet, ran, ends, spared,
    (spared.callers quiet).1.trans (Option.some.inj waiting)⟩

/-- While an endpoint is told of a response, the caller who waits for it is still in the table, and
a request that is refused under the same number takes it along. -/
theorem failed_sends_take_callers_along :
    ¬ ∀ (s s' : Session) operation now answers error, Session.Reachable {} s →
      s.run (s.alone operation now answers) = some s' →
      s'.history.head?.map Entry.progress = some (.finished (.sent (.error error))) →
      error.TurnsDown → s'.exchange.awaited.waiting = s.exchange.awaited.waiting := by
  intro spared
  obtain ⟨s, wraps⟩ := Session.exists_wraps 255 (by decide)
  have orders : s.exchange.Orders (.sendWithTimeout 16 0 [] none) ⟨16, 0, [], none, .once⟩
      (.single .client) := ⟨rfl, wraps.found, by decide⟩
  have wf := wraps.reached.accounted.wellFormed
  have refused : ∃ s', s.run (s.alone _ 0 [(.transport false, 0)]) = some s' ∧ _ :=
    Session.exists_refused wf orders wraps.idle nofun 0
  obtain ⟨s', ran, exchange, ends⟩ := refused
  have same := spared s s' _ _ _ _ wraps.reached ran ends .refused
  have released : s'.exchange.awaited = s.exchange.awaited.release ⟨16, 0, 0⟩ := by
    rw [exchange, Exchange.takenBack, Exchange.keyFor, wraps.next]
    rfl
  rw [released, wraps.awaited] at same
  cases same

end HubRelay
