import HubRelay.Proofs.Linked.Answering
import HubRelay.Proofs.Linked.Asking

/-!
What a request and its answer come to, whatever the order in which things happen.

`Dialogue.Stands` puts the stages of the two sides together with what is in the queues. Every move
of the dialogue keeps it, and as long as something is left to be taken or carried there is a move
that leads on. `Dialogue.Transparent` says what follows for the handlers, the slots and the sender.
-/

namespace HubRelay

namespace Dialogue

variable {d : Dialogue} {due due' : Bool} {j j' : Linked} {ask : AskStage} {answer : AnswerStage}

/-! ### The whole dialogue -/

/-- How the stages of the two sides go together. The side that asks cannot have been told before the
other has answered, and the other cannot have the request before it was carried; of all pairs of
stages these are left. -/
inductive Joint : AskStage → AnswerStage → Prop where
  | offered : Joint .offered .idle
  | carried {answer : AnswerStage} : Joint .carried answer
  | told {ask : AskStage} {id : OperationId} : ask.told = true → Joint ask (.sent id)

/-- What is in the queue of the side that asks. -/
def askerQueue (d : Dialogue) : AskStage → AnswerStage → List WorkItem
  | .carried, .sent _ => [.frame d.response.encode]
  | _, _ => []

/-- What is in the queue of the side that answers. -/
def answererQueue (d : Dialogue) : AskStage → AnswerStage → List WorkItem
  | .carried, .idle => [.frame d.request.encode]
  | _, _ => []

theorem askerQueue_of_told (d : Dialogue) (told : ask.told = true) :
    d.askerQueue ask answer = [] := by
  cases ask <;> first | rfl | cases told

theorem answererQueue_of_told (d : Dialogue) (told : ask.told = true) :
    d.answererQueue ask answer = [] := by
  cases ask <;> first | rfl | cases told

/-- The dialogue stands at these stages. Each side is described by itself, and the two queues hold
what is under way between them: nothing, the request or the response. -/
structure Stands (d : Dialogue) (due : Bool) (j : Linked) (ask : AskStage)
    (answer : AnswerStage) : Prop where
  link : j.link = d.link
  asking : d.Asking ask (j.port d.side).session (j.port d.side).answers
  answering : d.Answering answer (j.port d.side.opposite).session (j.port d.side.opposite).answers
  joint : Joint ask answer
  askerQueue : (j.port d.side).queue = d.askerQueue ask answer
  answererQueue : (j.port d.side.opposite).queue = d.answererQueue ask answer
  due : due = answer.due d.answerer.endpoint.isCustom

/-- The dialogue begins with the request on offer. -/
theorem stands_opened (d : Dialogue) :
    d.Stands d.answerer.endpoint.isCustom d.opened .offered .idle where
  link := rfl
  asking := by
    rw [opened, Linked.port_set]
    exact d.asking_opened
  answering := by
    rw [opened, Linked.port_set_opposite]
    exact d.answering_joined
  joint := .offered
  askerQueue := by
    rw [opened, Linked.port_set]
    rfl
  answererQueue := by
    rw [opened, Linked.port_set_opposite]
    rfl
  due := rfl

theorem Stands.handled_asker (stands : d.Stands due j ask answer) :
    d.handled j d.side = d.askerHeard ask := stands.asking.handled

theorem Stands.handled_answerer (stands : d.Stands due j ask answer) :
    d.handled j d.side.opposite = d.answererHeard answer := stands.answering.handled

/-- Only the side that asks has moved. -/
theorem Stands.asker (stands : d.Stands due j ask answer) {p : Port} {ask' : AskStage}
    (asking : d.Asking ask' p.session p.answers) (joint : Joint ask' answer)
    (askerQueue : p.queue = d.askerQueue ask' answer)
    (answererQueue : d.answererQueue ask answer = d.answererQueue ask' answer) :
    d.Stands due (j.set d.side p) ask' answer where
  link := stands.link
  asking := by rwa [Linked.port_set]
  answering := by
    rw [Linked.port_set_opposite]
    exact stands.answering
  joint := joint
  askerQueue := by rwa [Linked.port_set]
  answererQueue := by rw [Linked.port_set_opposite, stands.answererQueue, answererQueue]
  due := stands.due

/-- Only the side that answers has moved. -/
theorem Stands.answerer (stands : d.Stands due j ask answer) {p : Port} {answer' : AnswerStage}
    (answering : d.Answering answer' p.session p.answers) (joint : Joint ask answer')
    (askerQueue : d.askerQueue ask answer = d.askerQueue ask answer')
    (answererQueue : p.queue = d.answererQueue ask answer')
    (due : due' = answer'.due d.answerer.endpoint.isCustom) :
    d.Stands due' (j.set d.side.opposite p) ask answer' where
  link := stands.link
  asking := by
    rw [Linked.port_opposite_set]
    exact stands.asking
  answering := by rwa [Linked.port_set]
  joint := joint
  askerQueue := by rw [Linked.port_opposite_set, stands.askerQueue, askerQueue]
  answererQueue := by rwa [Linked.port_set]
  due := due

/-! ### Frames on their way -/

/-- The link of a dialogue carries every frame across and says so. -/
theorem Stands.carry_eq (stands : d.Stands due j ask answer) (side : Side) (id : OperationId)
    (frame : Bytes) :
    j.carry side id frame =
      (j.set side { j.port side with answers := (id, true) :: (j.port side).answers }).set
        side.opposite
        { j.port side.opposite with
          queue := (j.port side.opposite).queue ++ [.frame frame] } :=
  Linked.carry_eq (stands.link ▸ d.up) (stands.link ▸ d.attached) id frame

/-- The request gets to the queue of the side that answers. -/
theorem Stands.carriesRequest (stands : d.Stands due j .offered .idle) :
    d.Stands due (j.carry d.side (d.first d.side) d.request.encode) .carried .idle := by
  rw [stands.carry_eq]
  exact
    { link := stands.link
      asking := by
        rw [Linked.port_opposite_set, Linked.port_set]
        exact stands.asking.carry
      answering := by
        rw [Linked.port_set]
        exact stands.answering
      joint := .carried
      askerQueue := by
        rw [Linked.port_opposite_set, Linked.port_set]
        exact stands.askerQueue
      answererQueue := by
        rw [Linked.port_set, stands.answererQueue]
        rfl
      due := stands.due }

/-- The response gets to the queue of the side that asks. -/
theorem Stands.carriesResponse {id : OperationId}
    (stands : d.Stands due j .carried (.answered id)) :
    d.Stands due (j.carry d.side.opposite id d.response.encode) .carried (.sent id) := by
  rw [stands.carry_eq, Side.opposite_opposite]
  exact
    { link := stands.link
      asking := by
        rw [Linked.port_set]
        exact stands.asking
      answering := by
        rw [Linked.port_set_opposite, Linked.port_set]
        exact stands.answering.carry
      joint := .carried
      askerQueue := by
        rw [Linked.port_set, stands.askerQueue]
        rfl
      answererQueue := by
        rw [Linked.port_set_opposite, Linked.port_set]
        exact stands.answererQueue
      due := stands.due }

/-- The worker takes the request to the endpoint, which is asked or has answered already. -/
theorem Stands.takesRequest (stands : d.Stands due j .carried .idle) (now : Instant) :
    ∃ p, (j.port d.side.opposite).take? now = some p ∧
      ∃ answer', (answer' = .asked ∨ ∃ id, answer' = .answered id) ∧
        d.Stands due (j.set d.side.opposite p) .carried answer' := by
  obtain ⟨answer', custom, next, answering⟩ := stands.answering.take now
  refine ⟨_, Port.take?_frame stands.answererQueue now, answer', next, ?_⟩
  refine stands.answerer answering .carried ?_ ?_ (stands.due.trans custom.symm)
  · obtain rfl | ⟨id, rfl⟩ := next <;> rfl
  · obtain rfl | ⟨id, rfl⟩ := next <;> rfl

/-- The worker takes the response to the sender's endpoint. -/
theorem Stands.takesResponse {id : OperationId} (stands : d.Stands due j .carried (.sent id))
    (now : Instant) :
    ∃ p, (j.port d.side).take? now = some p ∧
      ∃ ask', ask'.told = true ∧ d.Stands due (j.set d.side p) ask' (.sent id) := by
  obtain ⟨ask', told, asking⟩ := stands.asking.take now
  exact ⟨_, Port.take?_frame stands.askerQueue now, ask', told,
    stands.asker asking (.told told) (d.askerQueue_of_told told).symm
      (d.answererQueue_of_told told).symm⟩

/-! ### One move -/

/-- Whatever a worker takes belongs to the dialogue. -/
theorem Stands.step_take (stands : d.Stands due j ask answer) {side : Side} {now : Instant}
    {p : Port} (taken : (j.port side).take? now = some p) :
    ∃ ask' answer', d.Stands due (j.set side p) ask' answer' := by
  have busy : (j.port side).queue ≠ [] := by
    intro empty
    rw [Port.take?_nil empty] at taken
    cases taken
  rcases d.side.eq_or_eq_opposite side with rfl | rfl
  · -- Only the response waits in the queue of the side that asks.
    rw [stands.askerQueue] at busy
    cases ask with
    | offered | called | settled => exact absurd rfl busy
    | carried =>
        cases answer with
        | idle | asked | answered => exact absurd rfl busy
        | sent id =>
            obtain ⟨_, taken', ask', -, stands'⟩ := stands.takesResponse now
            obtain rfl := Option.some.inj (taken'.symm.trans taken)
            exact ⟨ask', _, stands'⟩
  · rw [stands.answererQueue] at busy
    cases ask with
    | offered | called | settled => exact absurd rfl busy
    | carried =>
        cases answer with
        | asked | answered | sent => exact absurd rfl busy
        | idle =>
            obtain ⟨_, taken', answer', -, stands'⟩ := stands.takesRequest now
            obtain rfl := Option.some.inj (taken'.symm.trans taken)
            exact ⟨_, answer', stands'⟩

/-- Whatever is carried belongs to the dialogue, since nothing else is on offer. -/
theorem Stands.step_carry (stands : d.Stands due j ask answer) {side : Side} {id : OperationId}
    {o : Offering} (own : d.first side ≤ id) (offering : (j.port side).offering? id = some o) :
    ∃ ask' answer', d.Stands due (j.carry side id o.frame) ask' answer' := by
  rcases d.side.eq_or_eq_opposite side with rfl | rfl
  · obtain ⟨rfl, rfl, frame⟩ := stands.asking.of_offering own offering
    rw [frame]
    cases stands.joint with
    | offered => exact ⟨_, _, stands.carriesRequest⟩
    | told told => cases told
  · obtain ⟨rfl, frame⟩ := stands.answering.of_offering own offering
    rw [frame]
    cases stands.joint with
    | carried => exact ⟨_, _, stands.carriesResponse⟩

/-- An operation that learns of the link's answer does not change how the dialogue stands. -/
theorem Stands.step_hear (stands : d.Stands due j ask answer) {side : Side} {id : OperationId}
    {accepted : Bool} {now : Instant} {p : Port} (own : d.first side ≤ id)
    (resumed : (j.port side).resume? id (.transport accepted) now = some p) :
    d.Stands due (j.set side p) ask answer := by
  obtain ⟨answered, s, stepped, rfl⟩ := Port.of_resume?_transport resumed
  rcases d.side.eq_or_eq_opposite side with rfl | rfl
  · have asking := (stands.asking.hear own answered stepped).1
    exact stands.asker asking stands.joint stands.askerQueue rfl
  · exact stands.answerer (stands.answering.hear own answered stepped) stands.joint rfl
      stands.answererQueue stands.due

/-- Neither does a caller that looks for its response, as long as it is patient. -/
theorem Stands.step_wake (stands : d.Stands due j ask answer) {side : Side} {id : OperationId}
    {now : Instant} {p : Port} (own : d.first side ≤ id)
    (patient : Patient (j.port side).session id now)
    (resumed : (j.port side).resume? id .woken now = some p) :
    d.Stands due (j.set side p) ask answer := by
  obtain ⟨s, stepped, rfl⟩ := Port.of_resume?_other (by nofun) resumed
  rcases d.side.eq_or_eq_opposite side with rfl | rfl
  · have asking := (stands.asking.wake own patient stepped).1
    exact stands.asker asking stands.joint stands.askerQueue rfl
  · exact absurd stepped (stands.answering.not_woken own)

/-- An endpoint that returns has been told of the response, or has dealt with the request. -/
theorem Stands.step_return (stands : d.Stands due j ask answer) {side : Side} {id : OperationId}
    {code : ErrorCode} {now : Instant} {p : Port} (own : d.first side ≤ id)
    (allowed : due = true → side = d.side.opposite → code = .none)
    (resumed : (j.port side).resume? id (.endpoint code) now = some p) :
    ∃ ask', d.Stands due (j.set side p) ask' answer := by
  obtain ⟨s, stepped, rfl⟩ := Port.of_resume?_other (by nofun) resumed
  rcases d.side.eq_or_eq_opposite side with rfl | rfl
  · obtain ⟨told, asking⟩ := stands.asking.returned own stepped
    have queue : (j.port d.side).queue = [] := by
      rw [stands.askerQueue, d.askerQueue_of_told told]
    have joint : Joint .settled answer := by
      cases stands.joint with
      | offered | carried => cases told
      | told => exact .told rfl
    exact ⟨.settled, stands.asker asking joint queue (d.answererQueue_of_told told)⟩
  · have unanswered : answer = .asked → code = .none := by
      rintro rfl
      exact allowed stands.due rfl
    exact ⟨ask, stands.answerer (stands.answering.returned own unanswered stepped) stands.joint rfl
      stands.answererQueue stands.due⟩

/-- While an answer is due and the request has come, the program may answer. -/
theorem Stands.asked_of_due (stands : d.Stands true j ask answer) (told : answer.told = true) :
    ask = .carried ∧ answer = .asked := by
  have due := stands.due
  cases answer with
  | idle => cases told
  | answered | sent => cases due
  | asked =>
      cases stands.joint with
      | carried => exact ⟨rfl, rfl⟩

/-- Every move that belongs to the dialogue keeps it standing. There is one lemma for each kind of
move above; this is the induction step of all that holds of a dialogue. -/
theorem Stands.step (stands : d.Stands due j ask answer) {move : LinkedMove}
    (allowed : d.Allows j due move due') (stepped : j.step move = some j') :
    ∃ ask' answer', d.Stands due' j' ask' answer' := by
  cases allowed with
  | takes =>
      obtain ⟨p, taken, rfl⟩ := Option.map_eq_some_iff.mp stepped
      exact stands.step_take taken
  | carries own =>
      obtain ⟨o, offering, rfl⟩ := Option.map_eq_some_iff.mp stepped
      exact stands.step_carry own offering
  | hears own =>
      obtain ⟨p, resumed, rfl⟩ := Option.map_eq_some_iff.mp stepped
      exact ⟨_, _, stands.step_hear own resumed⟩
  | wakes own patient =>
      obtain ⟨p, resumed, rfl⟩ := Option.map_eq_some_iff.mp stepped
      exact ⟨_, _, stands.step_wake own patient resumed⟩
  | returns own allowed =>
      obtain ⟨p, resumed, rfl⟩ := Option.map_eq_some_iff.mp stepped
      obtain ⟨ask', stands'⟩ := stands.step_return own allowed resumed
      exact ⟨_, _, stands'⟩
  | @scans _ side limit now calm =>
      obtain rfl := Option.some.inj stepped
      rcases d.side.eq_or_eq_opposite side with rfl | rfl
      · exact ⟨_, _, stands.asker (stands.asking.scan calm now) stands.joint stands.askerQueue rfl⟩
      · exact ⟨_, _, stands.answerer (stands.answering.scan calm now) stands.joint rfl
          stands.answererQueue stands.due⟩
  | fails own failed empty =>
      obtain ⟨p, resumed, rfl⟩ := Option.map_eq_some_iff.mp stepped
      obtain ⟨s, returned, rfl⟩ := Port.of_resume?_other (by nofun) resumed
      obtain ⟨rfl, rfl⟩ := stands.asked_of_due (stands.answering.serves own returned).1
      exact ⟨_, _, stands.answerer (stands.answering.fail own failed empty returned) .carried rfl
        stands.answererQueue rfl⟩
  | @responds now called =>
      obtain rfl := Option.some.inj stepped
      have told : answer.told = true := by
        by_contra untold
        rw [stands.handled_answerer, answererHeard, if_neg untold] at called
        exact called rfl
      obtain ⟨rfl, rfl⟩ := stands.asked_of_due told
      exact ⟨_, _, stands.answerer (stands.answering.respond now) .carried rfl
        stands.answererQueue rfl⟩

/-- The dialogue stands somewhere in all states that it comes to. -/
theorem Leads.stands (leads : d.Leads due j due' j') (stands : d.Stands due j ask answer) :
    ∃ ask' answer', d.Stands due' j' ask' answer' := by
  induction leads with
  | refl => exact ⟨ask, answer, stands⟩
  | step _ allowed stepped ih =>
      obtain ⟨ask', answer', stands'⟩ := ih
      exact stands'.step allowed stepped

/-! ### Going on -/

theorem Leads.one {move : LinkedMove} (allowed : d.Allows j due move due')
    (stepped : j.step move = some j') : d.Leads due j due' j' :=
  .step .refl allowed stepped

theorem Leads.trans {due'' : Bool} {j'' : Linked} (leads : d.Leads due j due' j')
    (further : d.Leads due' j' due'' j'') : d.Leads due j due'' j'' := by
  induction further with
  | refl => exact leads
  | step _ allowed stepped ih => exact .step ih allowed stepped

/-- Nothing is left as soon as the response has come, or while the program still has to answer. -/
theorem Stands.drained_iff (stands : d.Stands due j ask answer) :
    d.Drained j ↔ ask.told = true ∨ answer = .asked := by
  constructor
  · intro drained
    obtain ⟨asker, unoffered⟩ := drained d.side
    obtain ⟨answerer, unoffered'⟩ := drained d.side.opposite
    -- While the request is on offer or a response is, something is left to be carried.
    cases stands.joint with
    | told told => exact .inl told
    | offered =>
        obtain ⟨o, offering⟩ := stands.asking.offers_request
        exact absurd offering (by rw [unoffered _ (Nat.le_refl _)]; exact nofun)
    | carried =>
        have queue := stands.askerQueue.symm.trans asker
        have queue' := stands.answererQueue.symm.trans answerer
        cases answer with
        | idle => cases queue'
        | asked => exact .inr rfl
        | sent => cases queue
        | answered id =>
            obtain ⟨own, o, offering⟩ := stands.answering.offers_response
            exact absurd offering (by rw [unoffered' id own]; exact nofun)
  · intro silent side
    have quiet : (j.port side).queue = [] := by
      rcases d.side.eq_or_eq_opposite side with rfl | rfl
      · rw [stands.askerQueue]
        rcases silent with told | rfl
        · exact d.askerQueue_of_told told
        · cases ask <;> rfl
      · rw [stands.answererQueue]
        rcases silent with told | rfl
        · exact d.answererQueue_of_told told
        · cases ask <;> rfl
    refine ⟨quiet, fun id own => ?_⟩
    cases offering : (j.port side).offering? id with
    | none => rfl
    | some o =>
        rcases d.side.eq_or_eq_opposite side with rfl | rfl
        · obtain ⟨rfl, -, -⟩ := stands.asking.of_offering own offering
          rcases silent with told | rfl
          · cases told
          · cases stands.joint
        · obtain ⟨rfl, -⟩ := stands.answering.of_offering own offering
          rcases silent with told | asked
          · cases stands.joint
            cases told
          · cases asked

/-- The dialogue can go on until nothing is left to be taken or carried. What is said here is that
some continuation drains it, whatever has happened so far; the moves that drain it belong to the
workers and the link and need nothing from the program. -/
def Drains (d : Dialogue) (due : Bool) (j : Linked) : Prop :=
  ∃ j', d.Leads due j due j' ∧ d.Drained j'

/-- What drains after an allowed move drains. -/
theorem Drains.before {move : LinkedMove} (allowed : d.Allows j due move due)
    (stepped : j.step move = some j') (drains : d.Drains due j') : d.Drains due j := by
  obtain ⟨j'', leads, drained⟩ := drains
  exact ⟨j'', (Leads.one allowed stepped).trans leads, drained⟩

/-- A response under way has only to be taken. The stages are gone through from the last one to the
first, so each of the following lemmas adds one move to the one before. -/
theorem Stands.drains_of_sent {id : OperationId} (stands : d.Stands due j .carried (.sent id)) :
    d.Drains due j := by
  obtain ⟨p, taken, ask', told, stands'⟩ := stands.takesResponse 0
  exact ⟨_, Leads.one .takes (congrArg (Option.map _) taken), stands'.drained_iff.mpr (.inl told)⟩

/-- One on offer has to be carried and taken. -/
theorem Stands.drains_of_answered {id : OperationId}
    (stands : d.Stands due j .carried (.answered id)) : d.Drains due j := by
  obtain ⟨own, o, offering⟩ := stands.answering.offers_response
  obtain ⟨-, frame⟩ := stands.answering.of_offering own offering
  have stepped : j.step (.carry d.side.opposite id) =
      some (j.carry d.side.opposite id d.response.encode) := by
    rw [← frame]
    exact congrArg (Option.map _) offering
  exact stands.carriesResponse.drains_of_sent.before (.carries own) stepped

/-- A request under way has to be taken; if it is answered at once, the answer comes on top. -/
theorem Stands.drains_of_carried (stands : d.Stands due j .carried .idle) : d.Drains due j := by
  obtain ⟨p, taken, answer', next, stands'⟩ := stands.takesRequest 0
  refine Drains.before .takes (congrArg (Option.map _) taken) ?_
  obtain rfl | ⟨id, rfl⟩ := next
  · exact ⟨_, .refl, stands'.drained_iff.mpr (.inr rfl)⟩
  · exact stands'.drains_of_answered

/-- A request on offer has to be carried before. -/
theorem Stands.drains_of_offered (stands : d.Stands due j .offered .idle) : d.Drains due j := by
  obtain ⟨o, offering⟩ := stands.asking.offers_request
  obtain ⟨-, -, frame⟩ := stands.asking.of_offering (Nat.le_refl _) offering
  have stepped : j.step (.carry d.side (d.first d.side)) =
      some (j.carry d.side (d.first d.side) d.request.encode) := by
    rw [← frame]
    exact congrArg (Option.map _) offering
  exact stands.carriesRequest.drains_of_carried.before (.carries (Nat.le_refl _)) stepped

/-- From wherever the dialogue stands, it can go on until nothing is left. -/
theorem Stands.drains (stands : d.Stands due j ask answer) : d.Drains due j := by
  cases stands.joint with
  | offered => exact stands.drains_of_offered
  | told told => exact ⟨j, .refl, stands.drained_iff.mpr (.inl told)⟩
  | carried =>
      cases answer with
      | idle => exact stands.drains_of_carried
      | asked => exact ⟨j, .refl, stands.drained_iff.mpr (.inr rfl)⟩
      | answered id => exact stands.drains_of_answered
      | sent id => exact stands.drains_of_sent

/-! ### The operation that asks returns -/

/-- The handler for the response returns, and the caller that waits can be woken. -/
theorem Stands.settled_of_called {id : OperationId} (stands : d.Stands due j (.called id) answer) :
    ∃ j', d.Leads due j due j' ∧ d.Stands due j' .settled answer := by
  obtain ⟨after, task, mem, rfl, serves⟩ := stands.asking.serving id rfl
  have own := Nat.le_of_lt after
  have proceeds : ((j.port d.side).session.exchange.proceed task.activity
      (.endpoint .none) 0).isSome = true := by
    rw [serves]
    rfl
  obtain ⟨s, resumed⟩ :=
    Session.exists_step_resume stands.asking.reached.orderly mem proceeds
  have stepped : j.step (.resume d.side task.id (.endpoint .none) 0) =
      some (j.set d.side { j.port d.side with session := s }) := by
    simp only [Linked.step, Port.resume?, resumed, Option.map_some]
  have joint : Joint .settled answer := by
    cases stands.joint with
    | told => exact .told rfl
  exact ⟨_, Leads.one (.returns own fun _ _ => rfl) stepped,
    stands.asker (stands.asking.returned own resumed).2 joint stands.askerQueue rfl⟩

/-- The operation that asks goes on, and ends: nobody waits for the response, or it is there. -/
theorem Stands.ends (stands : d.Stands due j ask answer) (later : ask ≠ .offered)
    (ready : d.caller = none ∨ ask = .settled) :
    ∃ j', d.Leads due j due j' ∧ d.Stands due j' ask answer ∧
      (j'.port d.side).session.history.outcomes (d.first d.side) = [d.outcome] := by
  -- The operation is under way or has ended; under way it hears from the link or waits for the
  -- response.
  rcases stands.asking.ends with ⟨⟨task, mem, first⟩, -⟩ | ⟨-, ended⟩
  · have orderly := stands.asking.reached.orderly
    have own : d.first d.side ≤ task.id := Nat.le_of_eq first.symm
    cases stands.asking.tasks task mem own with
    | hears after same =>
        exact absurd (same.symm.trans first) (Nat.ne_of_gt after)
    | offers _ offers =>
        have answered := stands.asking.carried later task mem first _ offers
        rw [← first] at answered
        have proceeds : ((j.port d.side).session.exchange.proceed task.activity
            (.transport true) 0).isSome = true := by
          rw [offers]
          rfl
        obtain ⟨s, resumed⟩ := Session.exists_step_resume orderly mem proceeds
        have stepped : j.step (.resume d.side task.id (.transport true) 0) =
            some (j.set d.side { j.port d.side with
              session := s, answers := (j.port d.side).answers.filter (·.1 != task.id) }) := by
          simp only [Linked.step, Port.resume?, answered, if_true, resumed, Option.map_some]
        obtain ⟨asking, ended⟩ := stands.asking.hear own answered resumed
        refine ⟨_, Leads.one (.hears own) stepped,
          stands.asker asking stands.joint stands.askerQueue rfl, ?_⟩
        rw [Linked.port_set]
        exact ended ready
    | waits _ _ caller activity =>
        have settled : ask = .settled := by
          rcases ready with nobody | settled
          · rw [nobody] at caller
            cases caller
          · exact settled
        -- The response is in the box, so looking ends the wait whatever the time.
        have delivered := stands.asking.mail settled ⟨task, mem, first⟩ _ _ caller
        have patient : Patient (j.port d.side).session task.id 0 := by
          intro other under same wait waits
          obtain rfl := List.inj_on_of_nodup_map orderly.distinct under mem same
          rw [activity] at waits
          obtain rfl := Blocked.reply.inj (Activity.blocked.inj waits)
          left
          rw [delivered]
          intro nothing
          cases nothing
        have proceeds : ((j.port d.side).session.exchange.proceed task.activity
            .woken 0).isSome = true := by
          rw [activity]
          rfl
        obtain ⟨s, resumed⟩ := Session.exists_step_resume orderly mem proceeds
        have stepped : j.step (.resume d.side task.id .woken 0) =
            some (j.set d.side { j.port d.side with session := s }) := by
          simp only [Linked.step, Port.resume?, resumed, Option.map_some]
        obtain ⟨asking, ended⟩ := stands.asking.wake own patient resumed
        refine ⟨_, Leads.one (.wakes own patient) stepped,
          stands.asker asking stands.joint stands.askerQueue rfl, ?_⟩
        rw [Linked.port_set]
        exact ended settled
  · exact ⟨j, .refl, stands, ended⟩

/-- From a drained state the operation that asks returns, unless it waits for a response that the
program still has to give. Here the handler for the response has to return first, if it was called,
since the caller is woken by it. -/
theorem Stands.returns (stands : d.Stands due j ask answer) (drained : d.Drained j)
    (answered : d.caller = none ∨ due = false) :
    ∃ j', d.Leads due j due j' ∧ d.Drained j' ∧
      (j'.port d.side).session.history.outcomes (d.first d.side) = [d.outcome] := by
  have silent := stands.drained_iff.mp drained
  have later : ask ≠ .offered := by
    rintro rfl
    rcases silent with told | rfl
    · cases told
    · cases stands.joint
  have ends {j' : Linked} {ask' : AskStage} (leads : d.Leads due j due j')
      (stands' : d.Stands due j' ask' answer) (silent' : ask'.told = true ∨ answer = .asked)
      (later : ask' ≠ .offered) (ready : d.caller = none ∨ ask' = .settled) :
      ∃ j', d.Leads due j due j' ∧ d.Drained j' ∧
        (j'.port d.side).session.history.outcomes (d.first d.side) = [d.outcome] := by
    obtain ⟨j'', further, stands'', ended⟩ := stands'.ends later ready
    exact ⟨j'', leads.trans further, stands''.drained_iff.mpr silent', ended⟩
  rcases answered with nobody | rfl
  · exact ends .refl stands silent later (.inl nobody)
  · cases ask with
    | offered => exact absurd rfl later
    | carried =>
        rcases silent with told | rfl
        · cases told
        · cases stands.due
    | called id =>
        obtain ⟨j', leads, stands'⟩ := stands.settled_of_called
        exact ends leads stands' (.inl rfl) nofun (.inr rfl)
    | settled => exact ends .refl stands silent later (.inr rfl)

/-! ### What comes of it -/

/-- What the request and its answer come to, in a state of the dialogue. The flag says whether the
program still has to answer.

The first clauses are about safety: no handler is called for anything else, and none twice. The
clauses about drained states say that what should be handled is handled; that such states can always
be reached is said in the last ones. -/
structure Transparent (d : Dialogue) (due : Bool) (j : Linked) : Prop where
  /-- The handler for requests is called for nothing but what was sent, and only once. -/
  request : d.handled j d.side.opposite = [] ∨
    d.handled j d.side.opposite = [(d.answerer, d.request)]
  /-- The handler for responses is called for nothing but the answer, and only once. -/
  response : d.handled j d.side = [] ∨ d.handled j d.side = [(d.asker, d.response)]
  /-- Once nothing is left to be taken or carried, the request has come. -/
  asked : d.Drained j → d.handled j d.side.opposite = [(d.answerer, d.request)]
  /-- Nothing comes back before it was answered. -/
  unanswered : due = true → d.handled j d.side = []
  /-- Once it was answered and nothing is left to be taken or carried, the answer has come. -/
  answered : d.Drained j → due = false → d.handled j d.side = [(d.asker, d.response)]
  /-- When the answer has come the slot is free again, and nobody owes an answer. -/
  settled : d.handled j d.side ≠ [] →
    ((j.port d.side).session.exchange.ledger.slotAt d.order.handle d.order.command).outgoing.pending
        = false ∧
      (j.port d.side.opposite).session.exchange.ledger.owes d.key = false
  /-- All other slots stay as they were. -/
  untouched : ∀ side handle command, ¬ (d.order.handle = handle ∧ d.order.command = command) →
    (j.port side).session.exchange.ledger.slotAt handle command =
      (d.session side).exchange.ledger.slotAt handle command
  /-- The sender gets the number of the request, or the answer if it waits for one. -/
  ends : (j.port d.side).session.EndsLike (d.first d.side) d.outcome
  /-- The dialogue can go on until nothing is left to be taken or carried. -/
  drains : d.Drains due j
  /-- Then the sender returns, unless it waits for what the program still has to give. -/
  returns : d.Drained j → d.caller = none ∨ due = false →
    ∃ j', d.Leads due j due j' ∧ d.Drained j' ∧
      (j'.port d.side).session.history.outcomes (d.first d.side) = [d.outcome]

/-- What a dialogue comes to can be read off the stages at which it stands. -/
theorem Stands.transparent (stands : d.Stands due j ask answer) : d.Transparent due j where
  request := by
    rw [stands.handled_answerer, answererHeard]
    split
    · exact .inr rfl
    · exact .inl rfl
  response := by
    rw [stands.handled_asker, askerHeard]
    split
    · exact .inr rfl
    · exact .inl rfl
  asked := by
    intro drained
    have told : answer.told = true := by
      rcases stands.drained_iff.mp drained with told | rfl
      · cases stands.joint with
        | offered | carried => cases told
        | told => rfl
      · rfl
    rw [stands.handled_answerer, answererHeard, if_pos told]
  unanswered := by
    intro due
    rw [stands.handled_asker, askerHeard, if_neg]
    intro told
    cases stands.joint with
    | offered | carried => cases told
    | told => cases due.symm.trans stands.due
  answered := by
    intro drained undue
    have told : ask.told = true := by
      rcases stands.drained_iff.mp drained with told | rfl
      · exact told
      · cases undue.symm.trans stands.due
    rw [stands.handled_asker, askerHeard, if_pos told]
  settled := by
    intro heard
    have told : ask.told = true := by
      by_contra untold
      rw [stands.handled_asker, askerHeard, if_neg untold] at heard
      exact heard rfl
    refine ⟨stands.asking.free told, ?_⟩
    cases stands.joint with
    | offered | carried => cases told
    | told =>
        obtain ⟨now, ledger⟩ := stands.answering.ledger
        rw [ledger]
        exact d.owes_answered now
  untouched := by
    intro side handle command other
    rcases d.side.eq_or_eq_opposite side with rfl | rfl
    · exact stands.asking.untouched other
    · exact stands.answering.untouched other
  ends := stands.asking.ends
  drains := stands.drains
  returns := stands.returns

end Dialogue

/-- A request to an endpoint of the opposite role gets through to its handler just as it was sent,
once, and the answer to it gets back to the handler of the sender, once, whatever it is.

The dialogue may begin in any two reachable sessions, over any order of the moves that belong to it.
`Dialogue.handled` reads calls off the moves, so a handler of the program counts as called only
where the exchange is waiting for it to return. -/
theorem exchanges_transparent (d : Dialogue) {due : Bool} {j : Linked} (run : d.Reaches due j) :
    d.Transparent due j := by
  obtain ⟨ask, answer, stands⟩ := Dialogue.Leads.stands run d.stands_opened
  exact stands.transparent

section Single

variable {client service : Session} (reached : Session.Reachable {} client)
  (reached' : Session.Reachable {} service)
  (found : client.exchange.directory.find? 16 = some (.single .client))
  (found' : service.exchange.directory.find? 16 = some (.single .service))
  (ledger : client.exchange.ledger = .empty)

/-- A client asks a service over a link, and the service answers. -/
def Dialogue.single : Dialogue where
  settings := fun _ => {}
  session := fun side => if side = .left then client else service
  reachable := fun side => by cases side <;> assumption
  link := { left := some .left, right := some .right }
  up := rfl
  attached := fun side => by cases side <;> rfl
  side := .left
  operation := .sendWithTimeout 16 0 [1, 2] none
  order := ⟨16, 0, [1, 2], none, .once⟩
  ordered := rfl
  now := 0
  patience := fun _ patient => by cases patient
  wait := fun _ awaiting => by cases awaiting
  asker := .single .client
  askerFound := found
  askerCommand := by decide
  answerer := .single .service
  answererFound := found'
  answererCommand := by decide
  opposite := by decide
  idle := by
    show (client.exchange.ledger.slotAt 16 0).outgoing.pending = false
    rw [ledger, Ledger.slotAt_empty]
  long := by decide
  error := .none
  answer := [3]
  answerable := .inr (by decide)
  own := trivial

theorem Dialogue.transaction_single :
    (Dialogue.single reached reached' found found' ledger).transaction = 0 := by
  show (client.exchange.ledger.slotAt 16 0).nextTransaction = 0
  rw [ledger, Ledger.slotAt_empty]

end Single

/-- A client sends two bytes, and the service answers with one: each handler is called once. -/
theorem exchanges_transparent_single : ∃ (d : Dialogue) (j : Linked), d.Reaches false j ∧
    d.handled j d.side.opposite =
      [(.single .service, ⟨⟨16, .clientRequest, 0, .none, 0⟩, [1, 2]⟩)] ∧
    d.handled j d.side = [(.single .client, ⟨⟨16, .serviceResponse, 0, .none, 0⟩, [3]⟩)] ∧
    (j.port d.side).session.history.outcomes (d.first d.side) = [.sent (.ok 0)] := by
  obtain ⟨client, reached, found, ledger, -⟩ := Session.reachable_single .client
  obtain ⟨service, reached', found', -⟩ := Session.reachable_single .service
  let d := Dialogue.single reached reached' found found' ledger
  have transaction : d.transaction = 0 :=
    Dialogue.transaction_single reached reached' found found' ledger
  have opened : d.Reaches true d.opened := .refl
  -- The request comes, and its handler is called.
  obtain ⟨asked, brought, drained⟩ := (exchanges_transparent d opened).drains
  have called := (exchanges_transparent d (opened.trans brought)).asked drained
  -- The program responds, and the response comes.
  have allowed : d.Allows asked true
      (.start d.side.opposite (.respond d.request.header d.error d.answer) 0) false :=
    .responds (called ▸ List.cons_ne_nil _ _)
  have responded := (opened.trans brought).trans (.one allowed rfl)
  obtain ⟨answered, returned, drained⟩ := (exchanges_transparent d responded).drains
  -- The sender returns.
  obtain ⟨last, ended, drained, result⟩ :=
    (exchanges_transparent d (responded.trans returned)).returns drained (.inl rfl)
  have reaches : d.Reaches false last := (responded.trans returned).trans ended
  have transparent := exchanges_transparent d reaches
  refine ⟨d, last, reaches, ?_, ?_, ?_⟩
  · rw [transparent.asked drained, Dialogue.request, transaction]
    rfl
  · rw [transparent.answered drained rfl, Dialogue.response, transaction]
    rfl
  · have outcome : d.outcome = .sent (.ok d.transaction) := rfl
    rw [result, outcome, transaction]

end HubRelay
