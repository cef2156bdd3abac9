import HubRelay.Proofs.Answering
import HubRelay.Proofs.Linked.Dialogue

/-!
The side of a dialogue that answers.

It gets the request, calls the handler, and offers the response once: when the program responds,
when the handler fails before anything was answered, or at once when the endpoint is one of the
exchange itself. Which operation offers the response depends on that, so the stage names it.
-/

namespace HubRelay

/-- How far the answering side has come. -/
inductive AnswerStage where
  | idle
  | asked
  | answered (id : OperationId)
  | sent (id : OperationId)

namespace AnswerStage

def told : AnswerStage → Bool
  | .idle => false
  | _ => true

def offers? : AnswerStage → Option OperationId
  | .answered id | .sent id => some id
  | _ => none

def due (custom : Bool) : AnswerStage → Bool
  | .idle => custom
  | .asked => true
  | _ => false

end AnswerStage

/-- Whether a frame that is offered for this answers a request. -/
def Purpose.answers : Purpose → Bool
  | .response | .errorAnswer _ | .echo _ => true
  | _ => false

/-- Nothing more happens once the transport has taken a response. -/
theorem Exchange.offered_answer (x : Exchange) (message : Message) {purpose : Purpose}
    (answers : purpose.answers = true) (now : Instant) :
    ∃ outcome, x.offered ⟨message, purpose⟩ true now = (x, .finished outcome) := by
  cases purpose with
  | response | errorAnswer => exact ⟨_, rfl⟩
  | echo request => exact ⟨_, rfl⟩
  | _ => cases answers

namespace Dialogue

variable {d : Dialogue} {stage : AnswerStage} {s s' : Session}
  {answers : List (OperationId × Bool)} {e : Entry}

/-! ### The invariant -/

/-- What the answering side has under way. At most one of these operations offers the response; the
others have it behind them or leave it to somebody else. -/
inductive AnswerTask (d : Dialogue) (stage : AnswerStage) (task : Task) : Prop where
  | serves : stage.told = true →
      task.activity = .serving ⟨d.answerer, d.request, .answerRequest⟩ → AnswerTask d stage task
  | offers {purpose : Purpose} : stage.offers? = some task.id → purpose.answers = true →
      task.activity = .offering ⟨d.response, purpose⟩ → AnswerTask d stage task

/-- The calls of handlers on the answering side. -/
def answererHeard (d : Dialogue) (stage : AnswerStage) : List (Registration × Message) :=
  if stage.told then [(d.answerer, d.request)] else []

/-- The ledger of the answering side before the request comes. -/
def unasked (d : Dialogue) : Ledger := (d.session d.side.opposite).exchange.ledger

/-- The ledger of the answering side when the request has come. -/
def received (d : Dialogue) (now : Instant) : Ledger :=
  d.unasked.openIncoming d.order.handle d.order.command d.transaction now

/-- The ledger of the answering side at a stage. -/
def AnswererLedger (d : Dialogue) : AnswerStage → Ledger → Prop
  | .idle, l => l = d.unasked
  | .asked, l => ∃ now, l = d.received now
  | .answered _, l | .sent _, l => ∃ now, l = (d.received now).closed d.key

/-- The answering side at a stage, with the link's answers to it. The stage names the operation that
offers the response, since the program may respond while its handler still runs or after it has
returned. -/
structure Answering (d : Dialogue) (stage : AnswerStage) (s : Session)
    (answers : List (OperationId × Bool)) : Prop extends
    Session.Talks (d.settings d.side.opposite) (d.session d.side.opposite) (d.AnswerTask stage)
      (d.answererHeard stage) s where
  /-- The request is open from when it came until it was answered. -/
  ledger : d.AnswererLedger stage s.exchange.ledger
  /-- The link has answered to the response, and to nothing else. -/
  answered : ∀ w ∈ answers, ∃ id, stage = .sent id ∧ w = (id, true)
  /-- The response is offered by an operation of the dialogue. -/
  offering : ∀ id, stage = .answered id → d.first d.side.opposite ≤ id ∧
    ∃ task ∈ s.tasks, task.id = id ∧ ∃ purpose, task.activity = .offering ⟨d.response, purpose⟩
  /-- Once the link has taken it, its answer waits for that operation. -/
  carried : ∀ id, stage = .sent id → ∀ task ∈ s.tasks, task.id = id →
    ∀ o, task.activity = .offering o → (id, true) ∈ answers

/-- What is offered keeps its number while other operations move. -/
theorem AnswerTask.mono {later : AnswerStage} {task : Task} (under : d.AnswerTask stage task)
    (told : stage.told = true → later.told = true)
    (offers : stage.offers? = some task.id → later.offers? = some task.id) :
    d.AnswerTask later task := by
  cases under with
  | serves begun activity => exact .serves (told begun) activity
  | offers own answers activity => exact .offers (offers own) answers activity

theorem wellFormed_received (d : Dialogue) (now : Instant) : (d.received now).WellFormed :=
  Ledger.wellFormed_openIncoming (d.reachable _).accounted.wellFormed _ _ _ _

/-- The request waits for its answer as soon as it has come. -/
theorem owes_received (d : Dialogue) (now : Instant) : (d.received now).owes d.key = true := by
  have wf : d.unasked.WellFormed := (d.reachable _).accounted.wellFormed
  rw [received, Ledger.owes_openIncoming wf, if_pos ⟨rfl, rfl⟩]
  exact beq_self_eq_true _

theorem owes_answered (d : Dialogue) (now : Instant) :
    ((d.received now).closed d.key).owes d.key = false := by
  rw [Ledger.owes_closed (d.wellFormed_received now), if_pos rfl]

/-! ### Before the request comes, and beside it -/

theorem answering_joined (d : Dialogue) : d.Answering .idle (d.session d.side.opposite) [] where
  toTalks := Session.talks_start (d.reachable _)
  ledger := rfl
  answered := fun _ mem => (List.not_mem_nil mem).elim
  offering := nofun
  carried := nofun

theorem Answering.scan (answering : d.Answering stage s answers) {limit : Instant}
    (calm : (s.exchange.ledger.takeLapsed limit).1 = []) (now : Instant) :
    d.Answering stage (s.start (.scan limit) now) answers := by
  obtain ⟨talks, exchange, tasks, -⟩ := answering.toTalks.scan calm now
  exact
    { toTalks := talks
      ledger := exchange ▸ answering.ledger
      answered := answering.answered
      offering := by rw [tasks]; exact answering.offering
      carried := by rw [tasks]; exact answering.carried }

/-- No operation of the answering side is blocked. -/
theorem Answering.not_woken {id : OperationId} {now : Instant}
    (answering : d.Answering stage s answers) (own : d.first d.side.opposite ≤ id) :
    s.step (.resume id .woken now) ≠ some s' := by
  intro resumed
  obtain ⟨task, mem, rfl, segment, proceeded, -⟩ := Session.moved_resuming resumed
  cases answering.tasks task mem own with
  | serves _ activity | offers _ _ activity =>
      rw [activity] at proceeded
      cases proceeded

/-! ### The response is carried -/

/-- A frame that is offered is the response, which has not been carried yet. -/
theorem Answering.of_offering {queue : List WorkItem} {id : OperationId} {o : Offering}
    (answering : d.Answering stage s answers) (own : d.first d.side.opposite ≤ id)
    (offering : Port.offering? ⟨s, queue, answers⟩ id = some o) :
    stage = .answered id ∧ o.frame = d.response.encode := by
  obtain ⟨unanswered, task, mem, rfl, offers⟩ := Port.of_offering? offering
  cases answering.tasks task mem own with
  | serves _ activity =>
      rw [activity] at offers
      cases offers
  | offers offered _ activity =>
      rw [activity] at offers
      obtain rfl := Activity.offering.inj offers
      refine ⟨?_, rfl⟩
      cases stage with
      | idle | asked => cases offered
      | answered id =>
          obtain rfl := Option.some.inj offered
          rfl
      | sent id =>
          obtain rfl := Option.some.inj offered
          exact absurd rfl (unanswered _ (answering.carried _ rfl task mem rfl _ activity))

/-- The response is offered until it is carried. -/
theorem Answering.offers_response {queue : List WorkItem} {id : OperationId}
    (answering : d.Answering (.answered id) s answers) :
    d.first d.side.opposite ≤ id ∧ ∃ o, Port.offering? ⟨s, queue, answers⟩ id = some o := by
  obtain ⟨own, task, mem, rfl, purpose, offers⟩ := answering.offering id rfl
  refine ⟨own, _, Port.offering?_of_mem answering.reached.orderly mem offers fun w mem => ?_⟩
  obtain ⟨_, other, -⟩ := answering.answered w mem
  cases other

theorem Answering.carry {id : OperationId} (answering : d.Answering (.answered id) s answers) :
    d.Answering (.sent id) s ((id, true) :: answers) where
  reached := answering.reached
  directory := answering.directory
  started := answering.started
  tasks := fun task mem own => (answering.tasks task mem own).mono (fun _ => rfl) (fun same => same)
  handled := answering.handled
  ledger := answering.ledger
  answered := by
    intro w mem
    rcases List.mem_cons.mp mem with rfl | mem
    · exact ⟨id, rfl, rfl⟩
    · obtain ⟨_, other, -⟩ := answering.answered w mem
      cases other
  offering := nofun
  carried := by
    rintro _ ⟨⟩ _ _ _ _ _
    exact List.mem_cons_self

theorem Answering.hear {id : OperationId} {accepted : Bool} {now : Instant}
    (answering : d.Answering stage s answers) (own : d.first d.side.opposite ≤ id)
    (heard : (id, accepted) ∈ answers)
    (resumed : s.step (.resume id (.transport accepted) now) = some s') :
    d.Answering stage s' (answers.filter (·.1 != id)) := by
  obtain ⟨task, mem, rfl, segment, proceeded, moved⟩ := Session.moved_resuming resumed
  obtain ⟨id, rfl, same⟩ := answering.answered _ heard
  obtain ⟨rfl, rfl⟩ := Prod.mk.inj same
  cases answering.tasks task mem own with
  | serves _ activity =>
      rw [activity] at proceeded
      cases proceeded
  | @offers purpose _ purposed activity =>
      obtain ⟨outcome, taken⟩ := s.exchange.offered_answer d.response purposed now
      rw [activity] at proceeded
      obtain rfl := Option.some.inj proceeded
      rw [taken] at moved
      have talks := answering.toTalks.advance (answering.reached.step resumed) moved own rfl
        (fun _ mem => (List.not_mem_nil mem).elim) fun _ _ under => under
      rw [Entry.handled_of_routine (by rw [Session.reentry, activity]; rfl)] at talks
      exact
        { toTalks := talks
          ledger := by
            rw [moved.after]
            exact answering.ledger
          answered := fun w mem => answering.answered w (List.mem_of_mem_filter mem)
          offering := fun _ other => by cases other
          carried := by
            rintro _ ⟨⟩ other mem same
            rcases moved.task_cases answering.reached.orderly mem with mine | ⟨-, apart⟩
            · cases mine
            · exact absurd same apart }

/-! ### The request comes, and is answered -/

/-- The response is tried. -/
theorem offerResponse_request (d : Dialogue) (x : Exchange) (purpose : Purpose) (now : Instant) :
    x.offerResponse d.request.header d.error d.answer purpose now =
      ({ x with ledger := x.ledger.closed d.key }, .waiting (.offering ⟨d.response, purpose⟩)) := by
  rw [offerResponse_eq, d.response?_request]
  rfl

/-- The handler fails with the error, and the exchange answers for it. -/
theorem requestServed_request (d : Dialogue) {x : Exchange} (owes : x.ledger.owes d.key = true)
    (failed : d.error ≠ .none) (empty : d.answer = []) (now : Instant) :
    x.requestServed d.request.header d.error now =
      ({ x with ledger := x.ledger.closed d.key },
        .waiting (.offering ⟨d.response, .errorAnswer d.error⟩)) := by
  have failed : ¬ d.error.isOk = true := by simpa [ErrorCode.isOk] using failed
  have owes : x.ledger.owes d.request.header.key = true := owes
  have response : d.response = ⟨d.response.header, []⟩ := empty ▸ rfl
  rw [requestServed_eq, if_neg failed, owes, d.response?_request, response]
  rfl

/-- The program's endpoints are called for the request. -/
theorem start_request_custom (d : Dialogue) {x : Exchange}
    (arrives : Arrives x d.request.encode d.answerer d.request) (unasked : x.ledger = d.unasked)
    (custom : d.answerer.endpoint.isCustom = true) (now : Instant) :
    x.start (.receive d.request.encode) now =
      ({ x with ledger := d.received now },
        .waiting (.serving ⟨d.answerer, d.request, .answerRequest⟩)) := by
  have inRange : ¬ d.answerer.descriptor.commands ≤ d.request.header.command :=
    UInt16.not_le.mpr d.answererCommand
  rw [Exchange.start_receive_request arrives d.request_asks, Exchange.receiveRequest,
    if_neg inRange]
  cases endpoint : d.answerer.endpoint with
  | custom number =>
      simp only [unasked]
      rfl
  | echo | probe =>
      rw [endpoint] at custom
      cases custom

/-- The exchange's own endpoints answer the request at once. -/
theorem start_request_standing (d : Dialogue) {x : Exchange}
    (arrives : Arrives x d.request.encode d.answerer d.request) (unasked : x.ledger = d.unasked)
    (standing : d.answerer.endpoint.isCustom = false) (now : Instant) :
    ∃ purpose, (purpose = .echo d.request.header ∨ purpose = .errorAnswer d.error) ∧
      x.start (.receive d.request.encode) now =
        ({ x with ledger := (d.received now).closed d.key },
          .waiting (.offering ⟨d.response, purpose⟩)) := by
  have own := d.own
  have inRange : ¬ d.answerer.descriptor.commands ≤ d.request.header.command :=
    UInt16.not_le.mpr d.answererCommand
  cases endpoint : d.answerer.endpoint with
  | custom number =>
      rw [endpoint] at standing
      cases standing
  | echo =>
      rw [endpoint] at own
      obtain ⟨error, answer⟩ := own
      have tried := d.offerResponse_request { x with ledger := d.received now }
        (.echo d.request.header) now
      rw [error, answer] at tried
      refine ⟨_, .inl rfl, ?_⟩
      rw [Exchange.start_receive_request arrives d.request_asks, Exchange.receiveRequest,
        if_neg inRange]
      simp only [endpoint, unasked]
      exact tried
  | probe =>
      rw [endpoint] at own
      obtain ⟨error, answer⟩ := own
      refine ⟨_, .inr rfl, ?_⟩
      rw [Exchange.start_receive_probe arrives d.request_asks endpoint, unasked, ← error]
      exact d.requestServed_request (x := { x with ledger := d.received now })
        (d.owes_received now) (error ▸ by decide) answer now

/-- A response is offered, as soon as the request has come or later. -/
theorem Answering.offers (answering : d.Answering stage s answers) (moved : s.Moved s' e)
    (reached : Session.Reachable (d.settings d.side.opposite) s')
    (own : d.first d.side.opposite ≤ e.operation) (silent : stage.offers? = none)
    (handled : e.handled ++ d.answererHeard stage = [(d.answerer, d.request)])
    (directory : e.after.directory = e.before.directory)
    (ledger : ∃ now, e.after.ledger = (d.received now).closed d.key)
    {purpose : Purpose} (purposed : purpose.answers = true)
    (progress : e.progress = .waiting (.offering ⟨d.response, purpose⟩)) :
    d.Answering (.answered e.operation) s' answers := by
  have left : e.tasks = [⟨e.operation, e.found, .offering ⟨d.response, purpose⟩⟩] := by
    rw [Entry.tasks, progress]
  have talks : Session.Talks _ _ (d.AnswerTask (.answered e.operation)) _ _ :=
    answering.toTalks.advance reached moved own directory
      (fun task mem => by
        rw [left] at mem
        obtain rfl := List.mem_singleton.mp mem
        exact .offers rfl purposed rfl)
      fun task _ under => under.mono (fun _ => rfl) fun offers => by
        rw [silent] at offers
        cases offers
  rw [handled] at talks
  exact
    { toTalks := talks
      ledger := moved.after ▸ ledger
      answered := by
        intro w mem
        obtain ⟨id, rfl, -⟩ := answering.answered w mem
        cases silent
      offering := by
        rintro _ ⟨⟩
        exact ⟨own, _, moved.mem_tasks (left ▸ List.mem_cons_self), rfl, purpose, rfl⟩
      carried := fun _ other => by cases other }

/-- The frame of the request is taken. -/
theorem Answering.take (answering : d.Answering .idle s answers) (now : Instant) :
    ∃ stage : AnswerStage, stage.due d.answerer.endpoint.isCustom = d.answerer.endpoint.isCustom ∧
      (stage = .asked ∨ ∃ id, stage = .answered id) ∧
      d.Answering stage (s.start (.receive d.request.encode) now) answers := by
  have arrives := d.request_arrives answering.directory
  have moved := s.moved_starting (.receive d.request.encode) now
  have reached :=
    answering.reached.step (rfl : s.step (.start (.receive d.request.encode) now) = _)
  cases custom : d.answerer.endpoint.isCustom with
  | true =>
      rw [d.start_request_custom arrives answering.ledger custom] at moved
      refine ⟨.asked, rfl, .inl rfl, ?_⟩
      have talks : Session.Talks _ _ (d.AnswerTask .asked) _ _ :=
        answering.toTalks.advance reached moved answering.started rfl
          (fun task mem => by
            obtain rfl := List.mem_singleton.mp mem
            exact .serves rfl rfl)
          fun task _ under => under.mono (fun _ => rfl) fun offers => by cases offers
      exact
        { toTalks := talks
          ledger := ⟨now, congrArg Exchange.ledger moved.after⟩
          answered := by
            intro w mem
            obtain ⟨_, other, -⟩ := answering.answered w mem
            cases other
          offering := fun _ other => by cases other
          carried := fun _ other => by cases other }
  | false =>
      obtain ⟨purpose, known, segment⟩ :=
        d.start_request_standing arrives answering.ledger custom now
      have purposed : purpose.answers = true := by rcases known with rfl | rfl <;> rfl
      have resident : d.answerer.endpoint.isResident = true := congrArg not custom
      have residents : s.exchange.residents d.request.encode = [(d.answerer, d.request)] :=
        Exchange.residents_eq arrives.decoded arrives.found resident
      rw [segment] at moved
      refine ⟨.answered s.started, rfl, .inr ⟨_, rfl⟩, ?_⟩
      refine answering.offers moved reached answering.started rfl ?_ rfl ⟨now, rfl⟩ purposed rfl
      rw [Entry.handled_of_received rfl, Entry.asked, Entry.delivery]
      rcases known with rfl | rfl <;>
        simp [Session.entry, residents, answererHeard, AnswerStage.told]

/-- The program responds. -/
theorem Answering.respond (answering : d.Answering .asked s answers) (now : Instant) :
    d.Answering (.answered s.started)
      (s.start (.respond d.request.header d.error d.answer) now) answers := by
  have moved := s.moved_starting (.respond d.request.header d.error d.answer) now
  have segment : s.exchange.start (.respond d.request.header d.error d.answer) now = _ :=
    d.offerResponse_request s.exchange .response now
  rw [segment] at moved
  obtain ⟨arrival, ledger⟩ := answering.ledger
  have reached := answering.reached.step
    (rfl : s.step (.start (.respond d.request.header d.error d.answer) now) = _)
  refine answering.offers moved reached answering.started rfl ?_ rfl
    ⟨arrival, congrArg (·.closed d.key) ledger⟩ rfl rfl
  rw [Entry.handled_of_routine rfl]
  rfl

/-- It is the handler of the request that returns. -/
theorem Answering.serves {id : OperationId} {code : ErrorCode} {now : Instant}
    (answering : d.Answering stage s answers) (own : d.first d.side.opposite ≤ id)
    (resumed : s.step (.resume id (.endpoint code) now) = some s') :
    stage.told = true ∧ ∃ task ∈ s.tasks, task.id = id ∧
      task.activity = .serving ⟨d.answerer, d.request, .answerRequest⟩ ∧
      s.Moved s' (s.reentry task (.endpoint code) now
        (s.exchange.requestServed d.request.header code now)) := by
  obtain ⟨task, mem, rfl, segment, proceeded, moved⟩ := Session.moved_resuming resumed
  cases answering.tasks task mem own with
  | offers _ _ activity =>
      rw [activity] at proceeded
      cases proceeded
  | serves told activity =>
      rw [activity] at proceeded
      obtain rfl := Option.some.inj proceeded
      exact ⟨told, task, mem, rfl, activity, moved⟩

/-- The handler returns: it has not failed, or there is an answer already. -/
theorem Answering.returned {id : OperationId} {code : ErrorCode} {now : Instant}
    (answering : d.Answering stage s answers) (own : d.first d.side.opposite ≤ id)
    (allowed : stage = .asked → code = .none)
    (resumed : s.step (.resume id (.endpoint code) now) = some s') :
    d.Answering stage s' answers := by
  obtain ⟨told, task, mem, rfl, activity, moved⟩ := answering.serves own resumed
  have quiet : s.exchange.requestServed d.request.header code now =
      (s.exchange, .finished (.disposed (.delivered code))) := by
    have answered (ledger : ∃ now, s.exchange.ledger = (d.received now).closed d.key) :
        s.exchange.requestServed d.request.header code now =
          (s.exchange, .finished (.disposed (.delivered code))) := by
      obtain ⟨now, ledger⟩ := ledger
      have settled : s.exchange.ledger.owes d.request.header.key = false := by
        rw [ledger]
        exact d.owes_answered now
      rw [requestServed_eq, Ledger.closed_of_not_owes settled, settled]
      split <;> rfl
    cases stage with
    | idle => cases told
    | asked =>
        obtain rfl := allowed rfl
        rfl
    | answered id => exact answered answering.ledger
    | sent id => exact answered answering.ledger
  rw [quiet] at moved
  -- What is offered, or was, is another operation.
  have other {other : Task} {o : Offering} (under : other ∈ s.tasks)
      (offers : other.activity = .offering o) : other.id ≠ task.id := by
    intro same
    obtain rfl :=
      List.inj_on_of_nodup_map answering.reached.orderly.distinct under mem same
    rw [activity] at offers
    cases offers
  have talks := answering.toTalks.advance (answering.reached.step resumed) moved own rfl
    (fun _ mem => (List.not_mem_nil mem).elim) fun _ _ under => under
  rw [Entry.handled_of_routine (by rw [Session.reentry, activity]; rfl)] at talks
  exact
    { toTalks := talks
      ledger := moved.after ▸ answering.ledger
      answered := answering.answered
      offering := fun id stage => by
        obtain ⟨since, task', under, same, purpose, offers⟩ := answering.offering id stage
        have stays := moved.mem_tasks_of_other under (other under offers)
        exact ⟨since, task', stays, same, purpose, offers⟩
      carried := fun id stage task' mem same o offers => by
        rcases moved.task_cases answering.reached.orderly mem with mine | ⟨under, -⟩
        · cases mine
        · exact answering.carried id stage task' under same o offers }

/-- The handler fails with the error of the answer, and nothing was answered yet. The exchange finds
the request open and answers for the handler. -/
theorem Answering.fail {id : OperationId} {now : Instant}
    (answering : d.Answering .asked s answers) (own : d.first d.side.opposite ≤ id)
    (failed : d.error ≠ .none) (empty : d.answer = [])
    (resumed : s.step (.resume id (.endpoint d.error) now) = some s') :
    d.Answering (.answered id) s' answers := by
  obtain ⟨-, task, mem, rfl, activity, moved⟩ := answering.serves own resumed
  obtain ⟨arrival, ledger⟩ := answering.ledger
  have owes : s.exchange.ledger.owes d.key = true := by
    rw [ledger]
    exact d.owes_received arrival
  rw [d.requestServed_request owes failed empty] at moved
  refine answering.offers moved (answering.reached.step resumed) own rfl ?_ rfl
    ⟨arrival, congrArg (·.closed d.key) ledger⟩ rfl rfl
  rw [Entry.handled_of_routine (by rw [Session.reentry, activity]; rfl)]
  rfl

/-! ### The slots of the answering side -/

theorem Answering.untouched (answering : d.Answering stage s answers) {handle : Handle}
    {command : Command} (other : ¬ (d.order.handle = handle ∧ d.order.command = command)) :
    s.exchange.ledger.slotAt handle command = d.unasked.slotAt handle command := by
  have wf : d.unasked.WellFormed := (d.reachable _).accounted.wellFormed
  have received (now : Instant) :
      (d.received now).slotAt handle command = d.unasked.slotAt handle command :=
    (Ledger.slotAt_openIncoming wf ..).trans (if_neg other)
  have closed (now : Instant) :
      ((d.received now).closed d.key).slotAt handle command =
        d.unasked.slotAt handle command := by
    rw [Ledger.slotAt_closed (d.wellFormed_received now), if_neg, received]
    exact fun here => other ⟨here.1, here.2.1⟩
  have ledger := answering.ledger
  cases stage with
  | idle => rw [show s.exchange.ledger = d.unasked from ledger]
  | asked =>
      obtain ⟨now, ledger⟩ := ledger
      rw [ledger, received]
  | answered | sent =>
      obtain ⟨now, ledger⟩ := ledger
      rw [ledger, closed]

end Dialogue

end HubRelay
