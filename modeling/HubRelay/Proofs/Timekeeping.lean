import HubRelay.Proofs.Expiry
import HubRelay.Proofs.Responses
import HubRelay.Proofs.Session.Expecting
import HubRelay.Proofs.Session.Strands

/-!
What becomes of spans that are so long that no clock shows their end.

A deadline is reckoned with a sum that notices when it cannot be shown, and then there is none. To
every reading that a clock can show this is as good as the sum itself (`hasCome_after?_iff`): the
request is pending without limit, the caller waits without limit. A sender that is to be patient is
the exception. The end of its wait is reckoned without looking (`Operation.Overreaches`), and this
is the one way in which an operation can come to grief (`isFault_start_of_not`, `isFault_proceed`).
-/

namespace HubRelay

/-! ### Deadlines -/

/-- What has no deadline never comes to it. -/
theorem hasCome_eq_true_iff {deadline : Option Instant} {now : Instant} :
    hasCome deadline now = true ↔ ∃ instant, deadline = some instant ∧ instant ≤ now := by
  simp [hasCome, Option.any_eq_true]

/-- On a clock, the end of a span has come when the time since is as long as the span, whether or
not the clock can show that end. So having no deadline at all is the right thing for a span that is
too long. -/
theorem hasCome_after?_iff {since reading : Instant} (shown : reading ≤ Instant.latest)
    (span : Span) : hasCome (since.after? span) reading = true ↔ since + span ≤ reading := by
  simp only [hasCome_eq_true_iff, Instant.after?_eq_some_iff]
  constructor
  · rintro ⟨instant, ⟨-, rfl⟩, come⟩
    exact come
  · exact fun come => ⟨since + span, ⟨Nat.le_trans come shown, rfl⟩, come⟩

/-- However far off the next deadline is, the worker looks again after its interval. -/
theorem idleSpan_le (interval : Span) (nextTimeout : Option Instant) (now : Instant) :
    idleSpan interval nextTimeout now ≤ interval := by
  cases nextTimeout with
  | none => exact Nat.le_refl interval
  | some deadline => exact Nat.min_le_right _ _

/-- A worker is up again by the next deadline, or at once if that has passed. -/
theorem add_idleSpan_le_max (interval : Span) (deadline now : Instant) :
    now + idleSpan interval (some deadline) now ≤ max now deadline := by
  rcases Nat.le_total now deadline with ahead | passed
  · exact Nat.le_trans (add_idleSpan_le ahead) (Nat.le_max_right _ _)
  · have nothing : deadline - now = 0 := Nat.sub_eq_zero_of_le passed
    rw [idleSpan, nothing, Nat.zero_min]
    exact Nat.le_max_left _ _

/-- Every round of a worker but the last ends with an operation that leaves no request pending whose
time is over by then. That operation is the scan, for which the work item of the round comes before.
-/
theorem WorkRound.ahead_of_last {round : WorkRound} {operation : Instant → Operation}
    (last : round.operations.getLast? = some operation) (x : Exchange) {now deadline : Instant}
    (next : (x.start (operation now) now).1.nextTimeout = some deadline) : now < deadline := by
  obtain rfl : operation = .scan := by
    cases round with
    | perform | sleep => exact (Option.some.inj last).symm
    | stop => cases last
  obtain ⟨p, -, told⟩ := tellLapsed_eq { x with ledger := (x.ledger.takeLapsed now).2 }
    (x.ledger.takeLapsed now).1.length (x.ledger.takeLapsed now).1
  replace told : x.start (.scan now) now = _ := told
  rw [told] at next
  exact Ledger.lt_nextDeadline_takeLapsed x.ledger next

/-! ### Operations that come to grief -/

/-- Whether an instant was needed that no clock can show. -/
def Outcome.isFault : Outcome → Bool
  | .aborted _ => true
  | _ => false

def Progress.isFault : Progress → Bool
  | .finished outcome => outcome.isFault
  | .waiting _ => false

theorem Progress.isFault_eq_true_iff {p : Progress} :
    p.isFault = true ↔ ∃ fault, p = .finished (.aborted fault) := by
  constructor
  · intro faults
    cases p with
    | waiting => cases faults
    | finished outcome =>
        cases outcome with
        | aborted fault => exact ⟨fault, rfl⟩
        | _ => cases faults
  · rintro ⟨fault, rfl⟩
    rfl

theorem Order.isFault_fail (order : Order) (error : ExchangeError) :
    (order.fail error).isFault = false := by
  unfold fail
  split <;> rfl

/-- A sender with an endpoint of its own is to be patient for longer than a clock can show. The slot
need not be busy for that. -/
def Order.Overreaches (order : Order) (x : Exchange) (now : Instant) : Prop :=
  ∃ r span, x.directory.find? order.handle = some r ∧ order.command < r.descriptor.commands ∧
    order.manner = .patient span ∧ Instant.latest < now + span

/-- A patient sender asks for longer than a clock can show, on behalf of an endpoint that stands and
for one of its commands. -/
def Operation.Overreaches (operation : Operation) (x : Exchange) (now : Instant) : Prop :=
  ∃ handle command payload patience r,
    operation = .sendPatiently handle command payload patience ∧
      x.directory.find? handle = some r ∧ command < r.descriptor.commands ∧
      Instant.latest < now + patience

namespace Exchange

variable {x : Exchange} {now : Instant}

/-! #### Requests -/

theorem isFault_beginRequest (x : Exchange) (role : Role) (order : Order) (now : Instant) :
    (x.beginRequest role order now).2.isFault = false := by
  unfold beginRequest
  split
  · exact order.isFault_fail _
  · dsimp only
    split <;> rfl

theorem isFault_pollSlot (x : Exchange) (wait : SlotWait) (now : Instant) :
    (x.pollSlot wait now).2.isFault = false := by
  unfold pollSlot
  split
  · rfl
  · exact x.isFault_beginRequest _ _ now

/-- A sender whose patience overreaches comes to grief before anything is looked at. -/
theorem place_of_overreaches {order : Order} (overreaches : order.Overreaches x now) :
    x.place order now = x.finish (.aborted .clockOverflow) := by
  obtain ⟨r, span, found, within, manner, beyond⟩ := overreaches
  have unshown : now.after? span = none := if_neg (Nat.not_le.mpr beyond)
  simp only [place, found, UInt16.not_le.mpr within, if_false, manner, unshown]

/-- Any other order is carried out or refused. -/
theorem isFault_place_of_not {order : Order} (reaches : ¬ order.Overreaches x now) :
    (x.place order now).2.isFault = false := by
  unfold place
  cases found : x.directory.find? order.handle with
  | none => exact order.isFault_fail _
  | some r =>
      dsimp only
      split
      · exact order.isFault_fail _
      · next within =>
        cases manner : order.manner with
        | once | awaiting => exact x.isFault_beginRequest _ _ now
        | patient span =>
            dsimp only
            cases ends : now.after? span with
            | some deadline => exact x.isFault_pollSlot _ now
            | none =>
                have beyond : Instant.latest < now + span := by
                  by_contra shown
                  rw [Instant.after?, if_pos (Nat.not_lt.mp shown)] at ends
                  cases ends
                exact absurd ⟨r, span, found, UInt16.not_le.mp within, manner, beyond⟩ reaches

/-! #### What comes in -/

theorem isFault_reject (x : Exchange) (header : Header) (code : ErrorCode) :
    (x.reject header code).2.isFault = false := by
  unfold reject
  split <;> rfl

theorem isFault_offerResponse (x : Exchange) (request : Header) (error : ErrorCode)
    (payload : Bytes) (purpose : Purpose) (now : Instant) :
    (x.offerResponse request error payload purpose now).2.isFault = false := by
  unfold offerResponse
  dsimp only
  split <;> rfl

theorem isFault_requestServed (x : Exchange) (request : Header) (code : ErrorCode) (now : Instant) :
    (x.requestServed request code now).2.isFault = false := by
  unfold requestServed
  split
  · rfl
  · split
    · rfl
    · split <;> rfl

/-- No scan comes to grief, whatever has lapsed. -/
theorem isFault_tellLapsed (x : Exchange) (count : Nat) (lapsed : List Lapsed) :
    (x.tellLapsed count lapsed).2.isFault = false := by
  induction lapsed generalizing x with
  | nil => rfl
  | cons l rest ih =>
      unfold tellLapsed
      split
      · exact ih x
      · dsimp only
        split
        · rfl
        · exact ih _

theorem isFault_receiveRequest (x : Exchange) (r : Registration) (request : Message)
    (now : Instant) : (x.receiveRequest r request now).2.isFault = false := by
  unfold receiveRequest
  dsimp only
  split
  · exact x.isFault_reject _ _
  · split
    · rfl
    · exact isFault_offerResponse _ _ _ _ _ now
    · exact isFault_requestServed _ _ _ now

theorem isFault_receiveResponse (x : Exchange) (r : Registration) (response : Message)
    (now : Instant) : (x.receiveResponse r response now).2.isFault = false := by
  unfold receiveResponse
  dsimp only
  split
  · rfl
  · split
    · split <;> rfl
    · rfl

/-- No frame brings an operation to grief, whatever its bytes. -/
theorem isFault_receive (x : Exchange) (frame : Bytes) (now : Instant) :
    (x.receive frame now).2.isFault = false := by
  unfold receive
  split
  · rfl
  · rfl
  · split
    · exact x.isFault_reject _ _
    · split
      · exact x.isFault_reject _ _
      · split
        · exact x.isFault_reject _ _
        · split
          · exact x.isFault_receiveRequest _ _ now
          · exact x.isFault_receiveResponse _ _ now
          · unfold receiveNotification
            split <;> rfl

theorem isFault_announce (x : Exchange) (announcement : Announcement) (rest : List Registration) :
    (x.announce announcement rest).2.isFault = false := by
  cases rest <;> rfl

/-! #### All operations -/

/-- A caller that looks for its response does not come to grief, even if its deadline cannot be
shown. -/
theorem isFault_pollReply (x : Exchange) (wait : ReplyWait) (now : Instant) :
    (x.pollReply wait now).2.isFault = false := by
  have replied := replied_pollReply x now (.goesOn (.blocked (.reply wait)) .woken) wait
  generalize x.pollReply wait now = segment at replied
  cases replied <;> rfl

theorem isFault_requestAccepted (x : Exchange) (request : Header)
    (caller : Option (CallId × Span)) (now : Instant) :
    (x.requestAccepted request caller now).2.isFault = false := by
  unfold requestAccepted
  split
  · rfl
  · exact x.isFault_pollReply _ now

theorem isFault_offered (x : Exchange) (o : Offering) (accepted : Bool) (now : Instant) :
    (x.offered o accepted now).2.isFault = false := by
  unfold offered
  cases o.purpose with
  | request caller =>
      dsimp only
      split
      · exact x.isFault_requestAccepted _ caller now
      · unfold requestRefused
        split
        · exact x.isFault_requestAccepted _ caller now
        · dsimp only
          split <;> rfl
  | response | notification | rejection | errorAnswer => rfl
  | echo request => exact x.isFault_requestServed request _ now

theorem isFault_served (x : Exchange) (s : Serving) (code : ErrorCode) (now : Instant) :
    (x.served s code now).2.isFault = false := by
  unfold served
  split
  · exact x.isFault_requestServed _ code now
  · rfl
  · rfl
  · exact isFault_tellLapsed _ _ _

/-- An operation that goes on does not come to grief. -/
theorem isFault_proceed {activity : Activity} {reply : Reply} {segment : Segment}
    (proceeds : x.proceed activity reply now = some segment) : segment.2.isFault = false := by
  unfold proceed at proceeds
  split at proceeds
  · obtain rfl := Option.some.inj proceeds
    exact x.isFault_offered _ _ now
  · obtain rfl := Option.some.inj proceeds
    exact x.isFault_served _ _ now
  · obtain rfl := Option.some.inj proceeds
    exact x.isFault_announce _ _
  · next b =>
    obtain rfl := Option.some.inj proceeds
    cases b with
    | slot wait => exact x.isFault_pollSlot wait now
    | reply wait => exact x.isFault_pollReply wait now
  · cases proceeds

/-- The operation itself comes to grief likewise. -/
theorem start_of_overreaches {operation : Operation} (overreaches : operation.Overreaches x now) :
    x.start operation now = x.finish (.aborted .clockOverflow) := by
  obtain ⟨handle, command, payload, patience, r, rfl, found, within, beyond⟩ := overreaches
  have ordered : (Operation.sendPatiently handle command payload patience).order? x =
      some ⟨handle, command, payload, r.descriptor.timeout.or x.settings.requestTimeout,
        .patient patience⟩ := by
    simp [Operation.order?, requestTimeout, found, Except.toOption]
  rw [start_of_order ordered]
  exact place_of_overreaches ⟨r, patience, found, within, rfl, beyond⟩

/-- An order that is not to be patient does not overreach. -/
theorem isFault_place_of_impatient {order : Order}
    (impatient : ∀ span, order.manner ≠ .patient span) :
    (x.place order now).2.isFault = false := by
  refine isFault_place_of_not ?_
  rintro ⟨r, span, -, -, manner, -⟩
  exact impatient span manner

theorem isFault_send (x : Exchange) (handle : Handle) (command : Command) (payload : Bytes)
    (now : Instant) : (x.send handle command payload now).2.isFault = false := by
  unfold send
  cases x.requestTimeout handle with
  | error => rfl
  | ok => exact isFault_place_of_impatient nofun

/-- A patient sender that does not overreach is refused, waits or sends. -/
theorem isFault_sendPatiently_of_not {handle : Handle} {command : Command} {payload : Bytes}
    {patience : Span}
    (reaches : ¬ (Operation.sendPatiently handle command payload patience).Overreaches x now) :
    (x.sendPatiently handle command payload patience now).2.isFault = false := by
  unfold sendPatiently
  cases x.requestTimeout handle with
  | error => rfl
  | ok timeout =>
      refine isFault_place_of_not ?_
      rintro ⟨r, span, found, within, manner, beyond⟩
      obtain rfl := Manner.patient.inj manner
      exact reaches ⟨handle, command, payload, patience, r, rfl, found, within, beyond⟩

theorem isFault_notify (x : Exchange) (handle : Handle) (command : Command) (payload : Bytes) :
    (x.notify handle command payload).2.isFault = false := by
  unfold notify
  split <;> rfl

/-- An operation that does not overreach does not come to grief when it starts. -/
theorem isFault_start_of_not {operation : Operation} (reaches : ¬ operation.Overreaches x now) :
    (x.start operation now).2.isFault = false := by
  cases operation with
  | register | registerAt | unregister => rfl
  | send handle command payload => exact x.isFault_send handle command payload now
  | sendPatiently => exact isFault_sendPatiently_of_not reaches
  | sendWithTimeout | sendAndAwait => exact isFault_place_of_impatient nofun
  | respond request error payload => exact x.isFault_offerResponse _ _ _ _ now
  | notify handle command payload => exact x.isFault_notify handle command payload
  | receive frame => exact x.isFault_receive frame now
  | scan limit => exact isFault_tellLapsed _ _ _
  | reset | establish => exact isFault_announce _ _ _

end Exchange

/-! ### Deadlines of requests -/

/-- The requests that a scan at an instant ends. -/
theorem Ledger.mem_lapsed_iff {l : Ledger} (wf : l.WellFormed) {key : RequestKey}
    (pending : l.awaits key = true) {now : Instant} :
    key ∈ (l.takeLapsed now).1.map Lapsed.key ↔
      hasCome (l.slotAt key.handle key.command).outgoing.deadline now = true := by
  rw [← ended_takeLapsed wf, mem_ended wf, awaits_takeLapsed, pending, Slot.isDue,
    (awaits_of_slotAt.mp pending).1]
  simp [hasCome]

/-- What is known of a request that is pending after a move: it was pending before, or the move
began it, and then its deadline is reckoned from this move. -/
theorem Entry.Sound.outgoing_cases {n : Entry} (sound : n.Sound) {key : RequestKey}
    (pending : n.after.ledger.awaits key = true) :
    (n.before.ledger.awaits key = true ∧
        (n.after.ledger.slotAt key.handle key.command).outgoing =
          (n.before.ledger.slotAt key.handle key.command).outgoing) ∨
      key ∈ n.begun ∧ ∃ role order, n.turn.Places n.before role order ∧
        order.handle = key.handle ∧ order.command = key.command ∧
        (n.after.ledger.slotAt key.handle key.command).outgoing.deadline =
          order.timeout.bind n.now.after? := by
  have wf := sound.before
  have kept (alike : (n.after.ledger.slotAt key.handle key.command).outgoing =
      (n.before.ledger.slotAt key.handle key.command).outgoing) :
      n.before.ledger.awaits key = true ∧
        (n.after.ledger.slotAt key.handle key.command).outgoing =
          (n.before.ledger.slotAt key.handle key.command).outgoing := by
    refine ⟨?_, alike⟩
    rw [Ledger.awaits_of_slotAt, ← alike, ← Ledger.awaits_of_slotAt]
    exact pending
  have finished (done : (n.after.ledger.slotAt key.handle key.command).outgoing.pending = false) :
      False := by
    rw [(Ledger.awaits_of_slotAt.mp pending).1] at done
    cases done
  -- A slot that is freed has nothing pending; any other keeps what it knows of its request.
  cases sound.books with
  | same alike => exact .inl (kept (alike _ _).1)
  | @began role order places idle ledger =>
      have slot := Ledger.slotAt_withRequest wf order.handle key.handle order.command key.command
        order.timeout n.now
      rw [← ledger] at slot
      split at slot
      · next here =>
        refine .inr ⟨sound.mem_begun.mpr ⟨pending, ?_⟩, role, order, places, here.1, here.2, ?_⟩
        · rw [← Bool.not_eq_true, Ledger.awaits_of_slotAt, ← here.1, ← here.2, idle]
          exact nofun
        · rw [slot]
          rfl
      · exact .inl (kept (congrArg Slot.outgoing slot))
  | @freed other _ ledger =>
      have slot := Ledger.slotAt_withoutRequest wf other.handle key.handle other.command key.command
      rw [← ledger] at slot
      split at slot
      · exact (finished (by rw [slot]; rfl)).elim
      · exact .inl (kept (congrArg Slot.outgoing slot))
  | @lapsed limit _ ledger =>
      have slot := n.before.ledger.slotAt_takeLapsed limit key.handle key.command
      rw [← ledger] at slot
      split at slot
      · exact (finished (by rw [slot]; rfl)).elim
      · exact .inl (kept (congrArg Slot.outgoing slot))
  | @dismissed handle _ ledger =>
      have slot := Ledger.slotAt_removeEndpoint wf handle key.handle key.command
      rw [← ledger] at slot
      split at slot
      · exact (finished (by rw [slot])).elim
      · exact .inl (kept (congrArg Slot.outgoing slot))
  | reset _ ledger =>
      have slot := Ledger.slotAt_empty key.handle key.command
      rw [← ledger] at slot
      exact (finished (by rw [slot])).elim

/-- A request under this key was begun in the move `e`, and has not ended since. -/
def History.PendingSince (h : History) (key : RequestKey) (e : Entry) : Prop :=
  ∃ recent past, h = recent ++ e :: past ∧ key ∈ e.begun ∧ ∀ n ∈ recent, key ∉ n.ended

namespace Session

variable {settings : Settings} {s s' : Session} {n : Entry}

/-- Whatever is pending has a deadline reckoned from the move that began it. The invariant names the
move, so it is about the instant at which the request was sent and not about any later one. -/
def Dated (s : Session) : Prop :=
  ∀ key, s.exchange.ledger.awaits key = true → ∃ e role order,
    s.history.PendingSince key e ∧ e.turn.Places e.before role order ∧
      order.handle = key.handle ∧ order.command = key.command ∧
      (s.exchange.ledger.slotAt key.handle key.command).outgoing.deadline =
        order.timeout.bind e.now.after?

/-- Every move dates the requests that it begins, and leaves the dates of others alone. -/
theorem Moved.dated (moved : s.Moved s' n) (wf : s.exchange.ledger.WellFormed) (dated : s.Dated) :
    s'.Dated := by
  intro key pending
  have sound := moved.sound wf
  rw [moved.after] at pending ⊢
  rw [moved.history]
  rcases sound.outgoing_cases pending with ⟨before, alike⟩ | ⟨begun, role, order, places, rest⟩
  · rw [moved.before] at before alike
    obtain ⟨e, role, order, since, places, handle, command, dated⟩ := dated key before
    obtain ⟨recent, past, split, begun, unended⟩ := since
    refine ⟨e, role, order, ⟨n :: recent, past, ?_, begun, ?_⟩, places, handle, command, ?_⟩
    · rw [split]
      rfl
    · rw [List.forall_mem_cons]
      refine ⟨fun ended => ?_, unended⟩
      rw [sound.mem_ended, pending] at ended
      cases ended.2
    · rw [alike, dated]
  · exact ⟨n, role, order, ⟨[], s.history, rfl, begun, List.forall_mem_nil _⟩, places, rest⟩

/-- In every run the deadline of a pending request is reckoned from the instant at which it was
sent. -/
theorem Reachable.dated (reached : Reachable settings s) : s.Dated := by
  refine reached.holds ?_ fun before moved dated => moved.dated before.accounted.wellFormed dated
  intro key pending
  rw [ofSettings, (Exchange.ledger_ofSettings settings).1, Ledger.awaits_empty] at pending
  cases pending

/-- The next deadline is one that a clock can show. -/
theorem Reachable.nextTimeout_le (reached : Reachable settings s) {deadline : Instant}
    (next : s.exchange.nextTimeout = some deadline) : deadline ≤ Instant.latest := by
  rw [Exchange.nextTimeout, Ledger.nextDeadline, List.min?_eq_some_iff] at next
  obtain ⟨slot, mem, pending, has⟩ := Ledger.mem_deadlines.mp next.1
  have found := Ledger.slot?_of_mem reached.accounted.wellFormed mem
  have same : s.exchange.ledger.slotAt slot.handle slot.command = slot := by
    rw [Ledger.slotAt, found, Option.getD_some]
  have awaited : s.exchange.ledger.awaits slot.key = true := by
    rw [Ledger.awaits_of_slotAt, Slot.key, same]
    exact ⟨pending, rfl⟩
  obtain ⟨e, -, order, -, -, -, -, dated⟩ := reached.dated _ awaited
  rw [Slot.key, same, has] at dated
  obtain ⟨timeout, -, reckoned⟩ := Option.bind_eq_some_iff.mp dated.symm
  obtain ⟨shown, rfl⟩ := Instant.after?_eq_some_iff.mp reckoned
  exact shown

end Session

/-! ### Deadlines of callers -/

section

variable {x y : Exchange} {now : Instant} {turn : Turn} {operation : Operation} {order : Order}
  {span : Span}

/-- A patient order comes from one kind of operation. -/
theorem Operation.eq_of_patient (ordered : operation.order? x = some order)
    (manner : order.manner = .patient span) :
    operation = .sendPatiently order.handle order.command order.payload span := by
  cases operation with
  | sendPatiently handle command payload patience =>
      obtain ⟨timeout, -, rfl⟩ := Option.map_eq_some_iff.mp ordered
      rw [Manner.patient.inj manner]
  | send handle command payload =>
      obtain ⟨timeout, -, rfl⟩ := Option.map_eq_some_iff.mp ordered
      cases manner
  | sendWithTimeout | sendAndAwait =>
      obtain rfl := Option.some.inj ordered
      cases manner
  | _ => cases ordered

/-- So does one whose sender awaits the response. -/
theorem Operation.eq_of_awaiting (ordered : operation.order? x = some order)
    (manner : order.manner = .awaiting span) :
    operation = .sendAndAwait order.handle order.command order.payload span := by
  cases operation with
  | sendAndAwait handle command payload timeout =>
      obtain rfl := Option.some.inj ordered
      rw [Manner.awaiting.inj manner]
  | send | sendPatiently =>
      obtain ⟨timeout, -, rfl⟩ := Option.map_eq_some_iff.mp ordered
      cases manner
  | sendWithTimeout =>
      obtain rfl := Option.some.inj ordered
      cases manner
  | _ => cases ordered

/-- Only the request of an order that awaits its response is offered on behalf of a caller. -/
theorem Deed.places_of_offering {o : Offering} {call : CallId}
    (deed : Deed x now turn (y, .waiting (.offering o)))
    (purpose : o.purpose = .request (some (call, span))) :
    ∃ role order, turn.Places x role order ∧ order.manner = .awaiting span := by
  have plain (plain : Progress.Plain (.waiting (.offering o))) : False := by
    cases plain with
    | offering unasked => exact unasked _ purpose
  cases deed with
  | idle idle => exact (plain idle.plain).elim
  | reset p | answered _ _ p | closed _ p => exact (plain p).elim
  | sent => cases purpose
  | sentAwaiting places idle manner =>
      obtain ⟨-, rfl⟩ := Prod.mk.inj (Option.some.inj (Purpose.request.inj purpose))
      exact ⟨_, _, places, manner⟩
  | echoed => cases purpose
  | scanned tells | told tells => cases tells

/-- Only a caller that awaits its response goes on waiting for it. -/
theorem Deed.awaits_of_replyWait {wait : ReplyWait}
    (deed : Deed x now turn (y, .waiting (.blocked (.reply wait)))) :
    ∃ before, turn.AwaitsReply now before := by
  cases deed with
  | waits awaits => exact ⟨_, awaits⟩
  | idle idle => cases idle.plain
  | reset p | answered _ _ p | closed _ p => cases p
  | scanned tells | told tells => cases tells

end

/-- An operation began like this. -/
def History.Began (h : History) (id : OperationId) (operation : Operation) : Prop :=
  ∃ b ∈ h, b.operation = id ∧ b.turn = .begins operation

/-- A caller was to wait for this long. -/
def History.Awaits (h : History) (id : OperationId) (span : Span) : Prop :=
  ∃ handle command payload, h.Began id (.sendAndAwait handle command payload span)

namespace Session

variable {settings : Settings} {s s' : Session} {e : Entry}

/-- Blocked callers wait for as long as they were to, reckoned from moves of their own. -/
structure Biding (s : Session) : Prop where
  offers : ∀ task ∈ s.tasks, ∀ o call span, task.activity = .offering o →
    o.purpose = .request (some (call, span)) → s.history.Awaits task.id span
  callers : ∀ task ∈ s.tasks, ∀ wait, task.activity = .blocked (.reply wait) →
    s.history.Awaits task.id wait.span ∧
      ∃ n ∈ s.history, n.operation = task.id ∧ wait.deadline = n.now.after? wait.span
  senders : ∀ task ∈ s.tasks, ∀ wait, task.activity = .blocked (.slot wait) →
    ∃ b ∈ s.history, ∃ span, b.operation = task.id ∧
      b.turn = .begins
        (.sendPatiently wait.order.handle wait.order.command wait.order.payload span) ∧
      b.now.after? span = some wait.deadline

/-- A sender that waits for its slot after a move has just begun to, or it goes on; the end of its
wait lies ahead. -/
theorem Moved.slotWait_cases (moved : s.Moved s' e) {wait : SlotWait}
    (progress : e.progress = .waiting (.blocked (.slot wait))) :
    e.now < wait.deadline ∧
      ((∃ span, e.now.after? span = some wait.deadline ∧ e.turn = .begins
          (.sendPatiently wait.order.handle wait.order.command wait.order.payload span)) ∨
        ∃ task ∈ s.tasks, task.id = e.operation ∧ task.activity = .blocked (.slot wait)) := by
  have deed := moved.deed
  have turned := moved.turned
  rw [progress] at deed turned
  have places := deed.places_of_slotWait
  generalize turn : e.turn = t at places turned
  generalize wait.role = role at places
  generalize given : wait.order = order at places
  cases places with
  | started ordered =>
      replace turned := Option.some.inj turned
      rw [Exchange.start_of_order ordered] at turned
      obtain ⟨span, -, manner, ends, ahead⟩ := Exchange.patient_of_place turned
      refine ⟨ahead, .inl ⟨span, ends, ?_⟩⟩
      rw [Operation.eq_of_patient ordered manner]
  | resumed =>
      obtain ⟨rfl, ahead⟩ := Exchange.slotWait_of_pollSlot (Option.some.inj turned)
      obtain ⟨task, under, id, -, activity⟩ := moved.former turn
      exact ⟨ahead, .inr ⟨task, under, id, activity⟩⟩

/-- What a caller that goes on waiting for its response had before it looked. -/
theorem Biding.of_awaits (biding : s.Biding) (moved : s.Moved s' e) {wait : ReplyWait}
    (awaits : e.turn.AwaitsReply e.now wait) :
    s.history.Awaits e.operation wait.span ∧
      ∃ n ∈ e :: s.history, n.operation = e.operation ∧
        wait.deadline = n.now.after? wait.span := by
  generalize turn : e.turn = t at awaits
  cases awaits with
  | offered purpose =>
      obtain ⟨task, under, id, -, activity⟩ := moved.former turn
      rw [← id]
      refine ⟨biding.offers task under _ _ _ activity purpose, e, List.mem_cons_self, id.symm, rfl⟩
  | waiting =>
      obtain ⟨task, under, id, -, activity⟩ := moved.former turn
      rw [← id]
      obtain ⟨awaits, n, mem, rest⟩ := biding.callers task under _ activity
      exact ⟨awaits, n, List.mem_cons_of_mem e mem, rest⟩

/-- Who begins to wait in a move waits from its instant on; who waits already keeps its deadline. -/
theorem Moved.biding (moved : s.Moved s' e) (orderly : s.Orderly) (patient : s.Patient)
    (biding : s.Biding) : s'.Biding := by
  have grown : s.history ⊆ s'.history := by
    rw [moved.history]
    exact List.subset_cons_self e s.history
  have latest : e ∈ s'.history := by
    rw [moved.history]
    exact List.mem_cons_self
  have keeps {id : OperationId} {span : Span} (awaits : s.history.Awaits id span) :
      s'.history.Awaits id span := by
    obtain ⟨handle, command, payload, b, mem, own, turn⟩ := awaits
    exact ⟨handle, command, payload, b, grown mem, own, turn⟩
  -- Three kinds of waiting operations; each is another one than the mover, or it is the mover.
  constructor
  · intro task mem o call span activity purpose
    rcases moved.task_cases orderly mem with mine | ⟨other, -⟩
    · obtain ⟨own, -, progress⟩ := moved.task_id mine
      have deed := moved.deed
      rw [progress, activity] at deed
      obtain ⟨role, order, places, manner⟩ := deed.places_of_offering purpose
      rcases moved.places_cases places with
        ⟨operation, turn, ordered, -⟩ | ⟨former, under, wait, before, same⟩
      · rw [Operation.eq_of_awaiting ordered manner] at turn
        exact ⟨_, _, _, e, latest, own.symm, turn⟩
      · obtain ⟨patience, manner'⟩ := patient former under wait before
        rw [same, manner] at manner'
        cases manner'
    · exact keeps (biding.offers task other o call span activity purpose)
  · intro task mem wait activity
    rcases moved.task_cases orderly mem with mine | ⟨other, -⟩
    · obtain ⟨own, -, progress⟩ := moved.task_id mine
      have deed := moved.deed
      rw [progress, activity] at deed
      obtain ⟨before, looks⟩ := deed.awaits_of_replyWait
      obtain ⟨awaits, n, mem, same, deadline⟩ := biding.of_awaits moved looks
      have replied := replied_of_turn looks moved.turned
      rw [progress, activity] at replied
      rw [own]
      generalize e.turn = turn at replied
      generalize e.after = after at replied
      cases replied with
      | waits =>
          rw [moved.history]
          exact ⟨moved.history ▸ keeps awaits, n, mem, same, deadline⟩
      -- The second wait is reckoned from this very move.
      | again => exact ⟨keeps awaits, e, latest, rfl, rfl⟩
    · obtain ⟨awaits, n, mem, rest⟩ := biding.callers task other wait activity
      exact ⟨keeps awaits, n, grown mem, rest⟩
  · intro task mem wait activity
    have former {other : Task} (under : other ∈ s.tasks)
        (waits : other.activity = .blocked (.slot wait)) : ∃ b ∈ s'.history, ∃ span,
        b.operation = other.id ∧ b.turn = .begins
          (.sendPatiently wait.order.handle wait.order.command wait.order.payload span) ∧
          b.now.after? span = some wait.deadline := by
      obtain ⟨b, mem, rest⟩ := biding.senders other under wait waits
      exact ⟨b, grown mem, rest⟩
    rcases moved.task_cases orderly mem with mine | ⟨other, -⟩
    · obtain ⟨own, -, progress⟩ := moved.task_id mine
      rw [activity] at progress
      rw [own]
      obtain ⟨-, ⟨span, ends, turn⟩ | ⟨other, under, id, waits⟩⟩ := moved.slotWait_cases progress
      · exact ⟨e, latest, span, rfl, turn, ends⟩
      · exact id ▸ former under waits
    · exact former other activity

/-- In every run those who wait have reckoned their deadlines from the moves in which they began. -/
theorem Reachable.biding (reached : Reachable settings s) : s.Biding := by
  refine reached.holds ?_ fun before moved biding =>
    moved.biding before.orderly before.patient biding
  constructor
  · intro task mem
    cases mem
  · intro task mem
    cases mem
  · intro task mem
    cases mem

theorem Reachable.exists_moved (reached : Reachable settings s) (mem : e ∈ s.history) :
    ∃ s₀ s₁ : Session, s₀.Moved s₁ e :=
  reached.of_mem (P := fun e => ∃ s₀ s₁ : Session, s₀.Moved s₁ e)
    (fun _ moved => ⟨_, _, moved⟩) mem

/-- An operation comes to grief if it overreaches when it begins, and then leaves all as it was. -/
theorem Moved.faults (moved : s.Moved s' e) :
    (e.progress.isFault = true ↔
        ∃ operation, e.turn = .begins operation ∧ operation.Overreaches e.before e.now) ∧
      (e.progress.isFault = true → e.after = e.before) := by
  have turned := moved.turned
  cases turn : e.turn with
  | goesOn activity reply =>
      rw [turn] at turned
      have sound := Exchange.isFault_proceed turned
      rw [sound]
      exact ⟨⟨nofun, fun ⟨_, begins, _⟩ => nomatch begins⟩, nofun⟩
  | begins operation =>
      rw [turn] at turned
      replace turned := Option.some.inj turned
      by_cases overreaches : operation.Overreaches e.before e.now
      · rw [Exchange.start_of_overreaches overreaches] at turned
        obtain ⟨after, progress⟩ := Prod.mk.inj turned
        rw [← after, ← progress]
        exact ⟨⟨fun _ => ⟨operation, rfl, overreaches⟩, fun _ => rfl⟩, fun _ => rfl⟩
      · have sound := Exchange.isFault_start_of_not overreaches
        rw [turned] at sound
        rw [sound]
        refine ⟨⟨nofun, fun ⟨other, begins, reaches⟩ => ?_⟩, nofun⟩
        obtain rfl := Turn.begins.inj begins
        exact absurd reaches overreaches

/-! ### All spans -/

/-- How a session deals with spans, whatever they are. The first field says exactly which operations
come to grief, and the others that everything else goes on as a clock without an end would have it.
-/
structure KeepsTime (s : Session) : Prop where
  /-- Operations come to grief by a patient send alone: the endpoint stands, the command is one of
  its own, and no clock shows the end of the wait. They leave all as it was. -/
  faults : ∀ e ∈ s.history, ((∃ fault, e.progress = .finished (.aborted fault)) ↔
      ∃ handle command payload patience r,
        e.turn = .begins (.sendPatiently handle command payload patience) ∧
          e.before.directory.find? handle = some r ∧ command < r.descriptor.commands ∧
          Instant.latest < e.now + patience) ∧
    ((∃ fault, e.progress = .finished (.aborted fault)) → e.after = e.before)
  /-- A scan ends the pending requests that have had a timeout and all of its time. -/
  requests : ∀ key, s.exchange.ledger.awaits key = true → ∃ e role order,
    s.history.PendingSince key e ∧ e.turn.Places e.before role order ∧
      order.handle = key.handle ∧ order.command = key.command ∧
      ∀ reading ≤ Instant.latest,
        (key ∈ (s.exchange.ledger.takeLapsed reading).1.map Lapsed.key ↔
          ∃ timeout, order.timeout = some timeout ∧ e.now + timeout ≤ reading)
  /-- A caller's wait is over when as much time as it was given has passed since one of its own
  moves. -/
  callers : ∀ task ∈ s.tasks, ∀ wait, task.activity = .blocked (.reply wait) →
    s.history.Awaits task.id wait.span ∧ ∃ n ∈ s.history, n.operation = task.id ∧
      ∀ reading ≤ Instant.latest,
        (hasCome wait.deadline reading = true ↔ n.now + wait.span ≤ reading)
  /-- Who waits for its slot does so for as long as it asked for when it began, and a clock can show
  the end. -/
  senders : ∀ task ∈ s.tasks, ∀ wait, task.activity = .blocked (.slot wait) →
    ∃ b ∈ s.history, ∃ span, b.operation = task.id ∧
      b.turn = .begins
        (.sendPatiently wait.order.handle wait.order.command wait.order.payload span) ∧
      wait.deadline = b.now + span ∧ wait.deadline ≤ Instant.latest
  /-- What is left of the wait for a slot is never less than nothing. -/
  ahead : ∀ e ∈ s.history, ∀ wait, e.progress = .waiting (.blocked (.slot wait)) →
    e.now < wait.deadline
  /-- The worker sleeps no longer than its interval, and until an instant that a clock can show if
  there is a deadline. -/
  worker : ∀ (interval : Span) (now : Instant),
    idleSpan interval s.exchange.nextTimeout now ≤ interval ∧
      ∀ deadline, s.exchange.nextTimeout = some deadline → deadline ≤ Instant.latest ∧
        now + idleSpan interval s.exchange.nextTimeout now ≤ max now deadline

end Session

/-- Whenever and for how long anybody is to wait, no operation comes to grief and a deadline that no
clock can show never comes, but for one case: a sender that is to be patient for longer than a clock
can show comes to grief, even if its slot is free. -/
theorem patience_alone_overreaches {settings : Settings} {s : Session}
    (reached : Session.Reachable settings s) : s.KeepsTime where
  faults e mem := by
    obtain ⟨s₀, s₁, moved⟩ := reached.exists_moved mem
    obtain ⟨faults, unharmed⟩ := moved.faults
    rw [← Progress.isFault_eq_true_iff]
    refine ⟨faults.trans ⟨?_, ?_⟩, unharmed⟩
    · rintro ⟨operation, turn, handle, command, payload, patience, r, rfl, rest⟩
      exact ⟨handle, command, payload, patience, r, turn, rest⟩
    · rintro ⟨handle, command, payload, patience, r, turn, rest⟩
      exact ⟨_, turn, handle, command, payload, patience, r, rfl, rest⟩
  requests key pending := by
    obtain ⟨e, role, order, since, places, handle, command, dated⟩ := reached.dated key pending
    refine ⟨e, role, order, since, places, handle, command, fun reading shown => ?_⟩
    rw [Ledger.mem_lapsed_iff reached.accounted.wellFormed pending, dated]
    cases order.timeout with
    | none => simp [hasCome]
    | some timeout => simpa using hasCome_after?_iff shown timeout
  callers task mem wait activity := by
    obtain ⟨awaits, n, mem, own, deadline⟩ := reached.biding.callers task mem wait activity
    refine ⟨awaits, n, mem, own, fun reading shown => ?_⟩
    rw [deadline]
    exact hasCome_after?_iff shown wait.span
  senders task mem wait activity := by
    obtain ⟨b, mem, span, own, turn, ends⟩ := reached.biding.senders task mem wait activity
    obtain ⟨shown, deadline⟩ := Instant.after?_eq_some_iff.mp ends
    exact ⟨b, mem, span, own, turn, deadline, deadline ▸ shown⟩
  ahead e mem wait progress := by
    obtain ⟨s₀, s₁, moved⟩ := reached.exists_moved mem
    exact (moved.slotWait_cases progress).1
  worker interval now := by
    refine ⟨idleSpan_le interval _ now, fun deadline next => ⟨reached.nextTimeout_le next, ?_⟩⟩
    rw [next]
    exact add_idleSpan_le_max interval deadline now

/-- A caller that waits for its response for the longest span there is waits without limit. -/
theorem patience_alone_overreaches_waiting :
    ∃ (s : Session) (task : Task) (wait : ReplyWait), Session.Reachable {} s ∧ s.tasks = [task] ∧
      task.activity = .blocked (.reply wait) ∧ wait.span = Span.longest ∧ s.KeepsTime ∧
      ∀ reading ≤ Instant.latest, hasCome wait.deadline reading = false := by
  obtain ⟨s, reached, found, ledger, -, tasks, -⟩ := Session.reachable_single .client
  have new : s.exchange.ledger.slotAt 16 0 = { handle := 16, command := 0 } := by
    rw [ledger, Ledger.slotAt_empty]
  obtain ⟨s', -, -, task, reached', -, -, -, -, -, -, -, -, tasks', -, activity⟩ :=
    reached.blocks found (by decide) new (by decide : 0 < Span.longest)
  rw [tasks] at tasks'
  have keeps : s'.KeepsTime := patience_alone_overreaches reached'
  refine ⟨s', task, _, reached', tasks', activity, rfl, keeps, fun reading shown => ?_⟩
  obtain ⟨-, n, -, -, come⟩ := keeps.callers task (tasks' ▸ List.mem_cons_self) _ activity
  rw [← Bool.not_eq_true, come reading shown]
  have beyond : Instant.latest < Span.longest := by decide
  exact Nat.not_le.mpr (Nat.lt_of_le_of_lt shown (Nat.lt_add_left n.now beyond))

/-- A sender whose slot is free does not wait at all, and still comes to grief if it asks for long
enough. -/
theorem patience_overreaches_on_free_slots :
    ¬ ∀ (s : Session) (patience : Span) (now : Instant), Session.Reachable {} s →
      s.exchange.isPending 16 0 = false → now ≤ Instant.latest → patience ≤ Span.longest →
      ∀ fault, (s.exchange.start (.sendPatiently 16 0 [] patience) now).2 ≠
        .finished (.aborted fault) := by
  intro sound
  obtain ⟨s, reached, found, ledger, -⟩ := Session.reachable_single .client
  have free : s.exchange.isPending 16 0 = false := by
    rw [Exchange.isPending, ledger, Ledger.isPending_eq, Ledger.slotAt_empty]
  have overreaches : (Operation.sendPatiently 16 0 [] Span.longest).Overreaches s.exchange 0 :=
    ⟨16, 0, [], _, _, rfl, found, by decide, by decide⟩
  refine sound s _ 0 reached free (Nat.zero_le _) (Nat.le_refl _) .clockOverflow ?_
  rw [Exchange.start_of_overreaches overreaches]
  rfl

end HubRelay
