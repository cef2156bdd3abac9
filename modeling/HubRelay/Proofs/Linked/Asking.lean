import HubRelay.Proofs.Linked.Dialogue

/-!
The side of a dialogue that asks.

Its request is offered, then carried; when the response has come the handler is called, and when it
is done the caller that waits is woken. Beside that the operation that asks goes on whenever it can,
and ends in the one way that it should.
-/

namespace HubRelay

/-- How far the asking side has come. -/
inductive AskStage where
  | offered
  | carried
  | called (id : OperationId)
  | settled

def AskStage.told : AskStage → Bool
  | .offered | .carried => false
  | .called _ | .settled => true

namespace Dialogue

variable {d : Dialogue} {stage : AskStage} {s s' : Session} {answers : List (OperationId × Bool)}

/-! ### The invariant -/

/-- What the asking side has under way. -/
inductive AskTask (d : Dialogue) : AskStage → Task → Prop where
  | offers {stage : AskStage} {task : Task} : task.id = d.first d.side →
      task.activity = .offering ⟨d.request, .request d.caller⟩ → AskTask d stage task
  | waits {stage : AskStage} {task : Task} {call : CallId} {span : Span}
      {deadline : Option Instant} : stage ≠ .offered → task.id = d.first d.side →
      d.caller = some (call, span) →
      task.activity = .blocked (.reply ⟨call, d.key, span, deadline, false⟩) →
      AskTask d stage task
  | hears {id : OperationId} {task : Task} : d.first d.side < id → task.id = id →
      task.activity = .serving ⟨d.asker, d.response, .wakeCaller⟩ → AskTask d (.called id) task

/-- The calls of handlers on the asking side. -/
def askerHeard (d : Dialogue) (stage : AskStage) : List (Registration × Message) :=
  if stage.told then [(d.asker, d.response)] else []

/-- The asking side at a stage, with the link's answers to it. It says what the operation that asks
is about, which handlers were called, and what the ledger and the table of callers are, so that each
move has only to be looked at from one of these. -/
structure Asking (d : Dialogue) (stage : AskStage) (s : Session)
    (answers : List (OperationId × Bool)) : Prop extends
    Session.Talks (d.settings d.side) (d.session d.side) (d.AskTask stage) (d.askerHeard stage) s
    where
  /-- The request has been begun. -/
  begun : d.first d.side < s.started
  /-- The slot is freed when the response comes. -/
  ledger : s.exchange.ledger =
    if stage.told then d.ledger.withoutRequest d.order.handle d.order.command else d.ledger
  /-- The response is handed over to the caller only when the handler is done. -/
  awaited : stage ≠ .settled → s.exchange.awaited = d.awaited
  /-- From then on the caller finds it, unless it has returned. -/
  mail : stage = .settled → (∃ task ∈ s.tasks, task.id = d.first d.side) →
    ∀ call span, d.caller = some (call, span) →
      s.exchange.awaited.mailFor call = .delivered d.response
  /-- The link has answered to the request, and to nothing else. -/
  answered : ∀ w ∈ answers, w = (d.first d.side, true) ∧ stage ≠ .offered
  /-- Once the link has taken the frame, its answer waits for the sender. -/
  carried : stage ≠ .offered → ∀ task ∈ s.tasks, task.id = d.first d.side →
    ∀ o, task.activity = .offering o → (d.first d.side, true) ∈ answers
  /-- Until then the sender is there. -/
  offered : stage = .offered → ∃ task ∈ s.tasks, task.id = d.first d.side
  /-- While the handler is at work, an operation of the dialogue waits for it. -/
  serving : ∀ id, stage = .called id → d.first d.side < id ∧ ∃ task ∈ s.tasks, task.id = id ∧
    task.activity = .serving ⟨d.asker, d.response, .wakeCaller⟩
  /-- The sender ends as it should if it has ended. -/
  ends : s.EndsLike (d.first d.side) d.outcome

/-- A caller waits for the response for some time, or nobody does. -/
theorem caller_cases (d : Dialogue) :
    (d.caller = none ∧ d.outcome = .sent (.ok d.transaction)) ∨
      ∃ call span, d.caller = some (call, span) ∧ 0 < span ∧
        d.outcome = .replied (.ok d.response) := by
  unfold caller outcome
  cases manner : d.order.manner with
  | once | patient => exact .inl ⟨rfl, rfl⟩
  | awaiting span => exact .inr ⟨_, span, rfl, d.wait span manner, rfl⟩

/-- The request is pending as long as the response has not come. -/
theorem awaits_ledger (d : Dialogue) : d.ledger.awaits d.key = true := by
  have wf := (d.reachable d.side).accounted.wellFormed
  have begun : (d.ledger.slotAt d.order.handle d.order.command) =
      (d.exchange.ledger.slotAt d.order.handle d.order.command).begin d.order.timeout d.now :=
    (Ledger.slotAt_withRequest wf ..).trans (if_pos ⟨rfl, rfl⟩)
  show (d.ledger.slotAt d.order.handle d.order.command).awaits d.transaction = true
  rw [begun]
  simp [Slot.awaits, Slot.begin, transaction]

/-! ### The request is offered, and carried -/

theorem asking_opened (d : Dialogue) :
    d.Asking .offered ((d.session d.side).start d.operation d.now) [] := by
  have reached := d.reachable d.side
  have moved := (d.session d.side).moved_starting d.operation d.now
  have segment : (d.session d.side).exchange.start d.operation d.now = _ := d.start_operation
  rw [segment] at moved
  have under := moved.mem_tasks (List.mem_singleton_self _)
  have talks : Session.Talks _ _ (d.AskTask .offered) _ _ :=
    (Session.talks_start reached).advance
      (reached.step (rfl : (d.session d.side).step (.start d.operation d.now) = _)) moved
      (Nat.le_refl _) rfl
      (fun task mem => by
        obtain rfl := List.mem_singleton.mp mem
        exact .offers rfl rfl)
      fun _ _ under => under
  rw [Entry.handled_of_routine (Operation.routine_of_order? d.ordered)] at talks
  exact
    { toTalks := talks
      begun := Nat.lt_succ_self _
      ledger := congrArg Exchange.ledger moved.after
      awaited := fun _ => congrArg Exchange.awaited moved.after
      mail := nofun
      answered := fun w mem => (List.not_mem_nil mem).elim
      carried := fun other => absurd rfl other
      offered := fun _ => ⟨_, under, rfl⟩
      serving := nofun
      ends := Session.endsLike_starting reached.orderly moved rfl rfl _ }

/-- A frame that is offered is the request, which has not been carried yet. -/
theorem Asking.of_offering {queue : List WorkItem} {id : OperationId} {o : Offering}
    (asking : d.Asking stage s answers) (own : d.first d.side ≤ id)
    (offering : Port.offering? ⟨s, queue, answers⟩ id = some o) :
    stage = .offered ∧ id = d.first d.side ∧ o.frame = d.request.encode := by
  obtain ⟨unanswered, task, mem, rfl, offers⟩ := Port.of_offering? offering
  cases asking.tasks task mem own with
  | offers first activity =>
      rw [activity] at offers
      obtain rfl := Activity.offering.inj offers
      refine ⟨?_, first, rfl⟩
      by_contra other
      exact unanswered _ (asking.carried other task mem first _ activity) first.symm
  | waits _ _ _ activity | hears _ _ activity =>
      rw [activity] at offers
      cases offers

/-- The request is offered until it is carried. -/
theorem Asking.offers_request {queue : List WorkItem} (asking : d.Asking .offered s answers) :
    ∃ o, Port.offering? ⟨s, queue, answers⟩ (d.first d.side) = some o := by
  obtain ⟨task, mem, first⟩ := asking.offered rfl
  cases asking.tasks task mem (Nat.le_of_eq first.symm) with
  | waits other => exact absurd rfl other
  | offers _ activity =>
      rw [← first]
      exact ⟨_, Port.offering?_of_mem asking.reached.orderly mem activity fun w mem =>
        absurd rfl (asking.answered w mem).2⟩

theorem Asking.carry (asking : d.Asking .offered s answers) :
    d.Asking .carried s ((d.first d.side, true) :: answers) where
  reached := asking.reached
  directory := asking.directory
  started := asking.started
  tasks := by
    intro task mem own
    cases asking.tasks task mem own with
    | offers first activity => exact .offers first activity
    | waits other => exact absurd rfl other
  handled := asking.handled
  begun := asking.begun
  ledger := asking.ledger
  awaited := fun _ => asking.awaited nofun
  mail := nofun
  answered := by
    intro w mem
    rcases List.mem_cons.mp mem with rfl | mem
    · exact ⟨rfl, nofun⟩
    · exact absurd rfl (asking.answered w mem).2
  carried := fun _ _ _ _ _ _ => List.mem_cons_self
  offered := nofun
  serving := nofun
  ends := asking.ends

theorem Asking.scan (asking : d.Asking stage s answers) {limit : Instant}
    (calm : (s.exchange.ledger.takeLapsed limit).1 = []) (now : Instant) :
    d.Asking stage (s.start (.scan limit) now) answers := by
  obtain ⟨talks, exchange, tasks, e, moved, operation⟩ := asking.toTalks.scan calm now
  exact
    { toTalks := talks
      begun := Nat.lt_succ_of_lt asking.begun
      ledger := by rw [exchange, asking.ledger]
      awaited := by rw [exchange]; exact asking.awaited
      mail := by rw [exchange, tasks]; exact asking.mail
      answered := asking.answered
      carried := by rw [tasks]; exact asking.carried
      offered := by rw [tasks]; exact asking.offered
      serving := by rw [tasks]; exact asking.serving
      ends := asking.ends.other asking.reached.orderly moved
        (operation ▸ Nat.ne_of_gt asking.begun) }

/-! ### The operation that asks goes on -/

/-- The operation that asks goes on when the link has answered. It ends with the number of the
request, or waits for the response; the response may be there already. -/
theorem Asking.goesOn (asking : d.Asking stage s answers) {e : Entry} (moved : s.Moved s' e)
    (reached : Session.Reachable (d.settings d.side) s') (later : stage ≠ .offered)
    (own : e.operation = d.first d.side) (under : ∃ task ∈ s.tasks, task.id = d.first d.side)
    (routine : e.turn.routine = true) (directory : e.after.directory = e.before.directory)
    (ledger : e.after.ledger = e.before.ledger)
    (awaited : stage ≠ .settled → e.after.awaited = e.before.awaited)
    (progress : e.progress = .finished d.outcome ∨ stage ≠ .settled ∧
      ∃ call span deadline, d.caller = some (call, span) ∧
        e.progress = .waiting (.blocked (.reply ⟨call, d.key, span, deadline, false⟩)))
    {answers' : List (OperationId × Bool)} (fewer : ∀ w ∈ answers', w ∈ answers) :
    d.Asking stage s' answers' := by
  have orderly := asking.reached.orderly
  have waits : ∀ task ∈ e.tasks, stage ≠ .settled ∧ d.AskTask stage task ∧
      ∀ o, task.activity ≠ .offering o := by
    intro task mine
    obtain ⟨operation, -, waiting⟩ := moved.task_id mine
    rcases progress with finished | ⟨unsettled, call, span, deadline, caller, blocked⟩
    · rw [finished] at waiting
      cases waiting
    · rw [blocked] at waiting
      have activity := (Progress.waiting.inj waiting).symm
      refine ⟨unsettled, .waits later (operation.trans own) caller activity, fun o offers => ?_⟩
      rw [activity] at offers
      cases offers
  have talks : Session.Talks _ _ (d.AskTask stage) _ _ :=
    asking.toTalks.advance reached moved (Nat.le_of_eq own.symm) directory
      (fun task mine => (waits task mine).2.1) fun _ _ under => under
  rw [Entry.handled_of_routine routine, List.nil_append] at talks
  -- A task with the number of the operation was left by this move.
  have mine {task : Task} (mem : task ∈ s'.tasks) (first : task.id = d.first d.side) :
      task ∈ e.tasks := by
    rcases moved.task_cases orderly mem with mine | ⟨-, other⟩
    · exact mine
    · exact absurd (first.trans own.symm) other
  exact
    { toTalks := talks
      begun := Nat.lt_of_lt_of_le asking.begun moved.started_le
      ledger := by rw [moved.after, ledger, moved.before, asking.ledger]
      awaited := fun unsettled => by
        rw [moved.after, awaited unsettled, moved.before, asking.awaited unsettled]
      mail := fun settled ⟨task, mem, first⟩ => absurd settled (waits task (mine mem first)).1
      answered := fun w mem => asking.answered w (fewer w mem)
      carried := fun _ task mem first o offers =>
        absurd offers ((waits task (mine mem first)).2.2 o)
      offered := fun stage => absurd stage later
      serving := fun id stage => by
        obtain ⟨after, task, mem, same, serves⟩ := asking.serving id stage
        have other : task.id ≠ e.operation := by
          rw [same, own]
          exact Nat.ne_of_gt after
        exact ⟨after, task, moved.mem_tasks_of_other mem other, same, serves⟩
      ends := asking.ends.own orderly moved own under fun result finished => by
        rcases progress with right | ⟨-, _, _, _, -, blocked⟩
        · exact Progress.finished.inj (finished.symm.trans right)
        · rw [blocked] at finished
          cases finished }

theorem Asking.hear {id : OperationId} {accepted : Bool} {now : Instant}
    (asking : d.Asking stage s answers) (own : d.first d.side ≤ id)
    (answered : (id, accepted) ∈ answers)
    (resumed : s.step (.resume id (.transport accepted) now) = some s') :
    d.Asking stage s' (answers.filter (·.1 != id)) ∧
      (d.caller = none ∨ stage = .settled →
        s'.history.outcomes (d.first d.side) = [d.outcome]) := by
  obtain ⟨task, mem, rfl, segment, proceeded, moved⟩ := Session.moved_resuming resumed
  obtain ⟨same, later⟩ := asking.answered _ answered
  obtain ⟨first, rfl⟩ := Prod.mk.inj same
  cases asking.tasks task mem own with
  | waits _ _ _ activity | hears _ _ activity =>
      rw [activity] at proceeded
      cases proceeded
  | offers _ activity =>
      rw [activity] at proceeded
      have taken : s.exchange.offered ⟨d.request, .request d.caller⟩ true now = segment :=
        Option.some.inj proceeded
      have under : ∃ task ∈ s.tasks, task.id = d.first d.side := ⟨task, mem, first⟩
      have goesOn := asking.goesOn moved (asking.reached.step resumed) later first under
        (by rw [Session.reentry, activity]; rfl)
      have fewer : ∀ w ∈ answers.filter (·.1 != task.id), w ∈ answers := fun w mem =>
        List.mem_of_mem_filter mem
      -- It ends now, or a caller waits for a response that is not there yet.
      have ended (finished : segment.2 = .finished d.outcome) :
          s'.history.outcomes (d.first d.side) = [d.outcome] :=
        asking.ends.finished moved first under finished
      rcases d.caller_cases with ⟨nobody, outcome⟩ | ⟨call, span, caller, positive, outcome⟩
      · rw [nobody] at taken
        subst taken
        have finished := congrArg Progress.finished outcome.symm
        exact ⟨goesOn rfl rfl (fun _ => rfl) (.inl finished) fewer, fun _ => ended finished⟩
      · rw [caller] at taken
        by_cases settled : stage = .settled
        · have delivered := asking.mail settled under call span caller
          rw [Exchange.offered_delivered delivered] at taken
          subst taken
          have finished := congrArg Progress.finished outcome.symm
          exact ⟨goesOn rfl rfl (absurd settled) (.inl finished) fewer, fun _ => ended finished⟩
        · have nothing : s.exchange.awaited.mailFor call = .nothing := by
            rw [asking.awaited settled]
            exact d.mailFor_awaited caller
          rw [Exchange.offered_waits nothing positive] at taken
          subst taken
          refine ⟨goesOn rfl rfl (fun _ => rfl)
            (.inr ⟨settled, call, span, _, caller, rfl⟩) fewer, ?_⟩
          rintro (nobody | settled')
          · rw [nobody] at caller
            cases caller
          · exact absurd settled' settled

/-- The caller that waits looks again: the response is there, or it goes on waiting. -/
theorem Asking.wake {id : OperationId} {now : Instant} (asking : d.Asking stage s answers)
    (own : d.first d.side ≤ id) (patient : Patient s id now)
    (resumed : s.step (.resume id .woken now) = some s') :
    d.Asking stage s' answers ∧
      (stage = .settled → s'.history.outcomes (d.first d.side) = [d.outcome]) := by
  obtain ⟨task, mem, rfl, segment, proceeded, moved⟩ := Session.moved_resuming resumed
  cases asking.tasks task mem own with
  | offers _ activity | hears _ _ activity =>
      rw [activity] at proceeded
      cases proceeded
  | @waits _ _ call span deadline later first caller activity =>
      have under : ∃ task ∈ s.tasks, task.id = d.first d.side := ⟨task, mem, first⟩
      have goesOn := asking.goesOn moved (asking.reached.step resumed) later first under
        (by rw [Session.reentry, activity]; rfl)
      have outcome : d.outcome = .replied (.ok d.response) := by
        rcases d.caller_cases with ⟨nobody, -⟩ | ⟨_, _, -, -, outcome⟩
        · rw [nobody] at caller
          cases caller
        · exact outcome
      have early := patient task mem rfl _ activity
      rw [activity] at proceeded
      obtain rfl := Option.some.inj proceeded
      by_cases settled : stage = .settled
      · have delivered := asking.mail settled under call span caller
        rw [Exchange.poll_delivered delivered] at moved goesOn
        have finished := congrArg Progress.finished outcome.symm
        exact ⟨goesOn rfl rfl (absurd settled) (.inl finished) fun _ mem => mem,
          fun _ => asking.ends.finished moved first under finished⟩
      · have nothing : s.exchange.awaited.mailFor call = .nothing := by
          rw [asking.awaited settled]
          exact d.mailFor_awaited caller
        have early := early.resolve_left (absurd nothing)
        rw [Exchange.poll_early nothing early rfl] at moved goesOn
        exact ⟨goesOn rfl rfl (fun _ => rfl) (.inr ⟨settled, call, span, deadline, caller, rfl⟩)
          fun _ mem => mem, fun settled' => absurd settled' settled⟩

/-! ### The response comes -/

/-- The handler is called; it is the exchange's own endpoint, or it is still at work. -/
theorem Asking.told (asking : d.Asking .carried s answers) {e : Entry} (moved : s.Moved s' e)
    (reached : Session.Reachable (d.settings d.side) s') (fresh : e.operation = s.started)
    (told : stage.told = true) (handled : e.handled = [(d.asker, d.response)])
    (directory : e.after.directory = e.before.directory)
    (ledger : e.after.ledger =
      e.before.ledger.withoutRequest d.order.handle d.order.command)
    (left : ∀ task ∈ e.tasks, d.AskTask stage task)
    (serving : ∀ id, stage = .called id → e.operation = id ∧
      e.progress = .waiting (.serving ⟨d.asker, d.response, .wakeCaller⟩))
    (unposted : stage ≠ .settled → e.after.awaited = e.before.awaited)
    (posted : stage = .settled → e.after.awaited = e.before.awaited.post d.response) :
    d.Asking stage s' answers := by
  have orderly := asking.reached.orderly
  have later : stage ≠ .offered := by
    rintro rfl
    cases told
  have apart : e.operation ≠ d.first d.side := fresh ▸ Nat.ne_of_gt asking.begun
  have talks : Session.Talks _ _ (d.AskTask stage) _ _ :=
    asking.toTalks.advance reached moved (fresh ▸ asking.started) directory left
      fun task _ under => by
        cases under with
        | offers first activity => exact .offers first activity
        | waits _ first caller activity => exact .waits later first caller activity
  have awaited : e.before.awaited = d.awaited := by
    rw [moved.before]
    exact asking.awaited nofun
  exact
    { toTalks := by
        rw [handled] at talks
        rwa [askerHeard, told]
      begun := Nat.lt_of_lt_of_le asking.begun moved.started_le
      ledger := by
        rw [moved.after, ledger, moved.before, asking.ledger, told]
        rfl
      awaited := fun unsettled => by rw [moved.after, unposted unsettled, awaited]
      mail := fun settled _ call span caller => by
        rw [moved.after, posted settled, awaited]
        exact d.mailFor_post caller
      answered := fun w mem => ⟨(asking.answered w mem).1, later⟩
      carried := fun _ task mem first o offers => by
        rcases moved.task_cases orderly mem with mine | ⟨under, -⟩
        · exact absurd ((moved.task_id mine).1.symm.trans first) apart
        · exact asking.carried nofun task under first o offers
      offered := fun stage => absurd stage later
      serving := fun id stage => by
        obtain ⟨rfl, progress⟩ := serving id stage
        refine ⟨fresh ▸ asking.begun, ⟨e.operation, e.found, _⟩, moved.mem_tasks ?_, rfl, rfl⟩
        rw [Entry.tasks, progress]
        exact List.mem_singleton_self _
      ends := asking.ends.other orderly moved apart }

theorem Asking.take (asking : d.Asking .carried s answers) (now : Instant) :
    ∃ stage : AskStage, stage.told = true ∧
      d.Asking stage (s.start (.receive d.response.encode) now) answers := by
  have arrives := d.response_arrives asking.directory
  have pending : s.exchange.ledger.awaits d.response.header.key = true := by
    rw [asking.ledger]
    exact d.awaits_ledger
  have moved := s.moved_starting (.receive d.response.encode) now
  have reached := asking.reached.step (rfl : s.step (.start (.receive d.response.encode) now) = _)
  cases standing : d.asker.endpoint.standing? d.response.header.type with
  | none =>
      obtain ⟨number, custom⟩ : ∃ number, d.asker.endpoint = .custom number := by
        cases endpoint : d.asker.endpoint with
        | custom number => exact ⟨number, rfl⟩
        | echo | probe =>
            simp [endpoint, Endpoint.standing?, d.response_answers] at standing
      rw [Exchange.start_receive_matched arrives d.response_answers custom pending] at moved
      refine ⟨.called s.started, rfl, asking.told moved reached rfl rfl rfl rfl rfl ?_ ?_
        (fun _ => rfl) fun settled => by cases settled⟩
      · intro task mem
        obtain rfl := List.mem_singleton.mp mem
        exact .hears asking.begun rfl rfl
      · rintro _ ⟨⟩
        exact ⟨rfl, rfl⟩
  | some code =>
      rw [Exchange.start_receive_absorbed arrives d.response_answers standing pending] at moved
      refine ⟨.settled, rfl, asking.told moved reached rfl rfl ?_ rfl rfl
        (fun task mem => (List.not_mem_nil mem).elim) (fun _ called => by cases called)
        (absurd rfl) fun _ => rfl⟩
      have residents : s.exchange.residents d.response.encode = [(d.asker, d.response)] :=
        Exchange.residents_eq arrives.decoded arrives.found
          (Endpoint.isResident_of_standing? standing)
      rw [Entry.handled_of_received rfl, Entry.asked, Entry.delivery]
      simp [Session.entry, residents, d.response_answers]

theorem Asking.returned {id : OperationId} {code : ErrorCode} {now : Instant}
    (asking : d.Asking stage s answers) (own : d.first d.side ≤ id)
    (resumed : s.step (.resume id (.endpoint code) now) = some s') :
    stage.told = true ∧ d.Asking .settled s' answers := by
  obtain ⟨task, mem, rfl, segment, proceeded, moved⟩ := Session.moved_resuming resumed
  have orderly := asking.reached.orderly
  cases asking.tasks task mem own with
  | offers _ activity | waits _ _ _ activity =>
      rw [activity] at proceeded
      cases proceeded
  | hears after same activity =>
      subst same
      rw [activity] at proceeded
      obtain rfl := Option.some.inj proceeded
      have routine (segment : Segment) :
          (s.reentry task (.endpoint code) now segment).turn.routine = true := by
        rw [Session.reentry, activity]
        rfl
      have talks : Session.Talks _ _ (d.AskTask .settled) _ _ :=
        asking.toTalks.advance (asking.reached.step resumed) moved own rfl
          (fun task mem => (List.not_mem_nil mem).elim)
          fun task other under => by
            cases under with
            | offers first activity => exact .offers first activity
            | waits _ first caller activity => exact .waits nofun first caller activity
            | hears _ same => exact absurd same other
      rw [Entry.handled_of_routine (routine _)] at talks
      exact ⟨rfl,
        { toTalks := talks
          begun := Nat.lt_of_lt_of_le asking.begun moved.started_le
          ledger := by
            rw [moved.after]
            exact asking.ledger
          awaited := absurd rfl
          mail := fun _ _ call span caller => by
            rw [moved.after]
            show (s.exchange.awaited.post d.response).mailFor call = _
            rw [asking.awaited nofun]
            exact d.mailFor_post caller
          answered := fun w mem => ⟨(asking.answered w mem).1, nofun⟩
          carried := fun _ task mem first o offers => by
            rcases moved.task_cases orderly mem with mine | ⟨under, -⟩
            · cases mine
            · exact asking.carried nofun task under first o offers
          offered := nofun
          serving := nofun
          ends := asking.ends.other orderly moved (Nat.ne_of_gt after) }⟩

/-! ### The slots of the asking side -/

theorem wellFormed_ledger (d : Dialogue) : d.ledger.WellFormed :=
  Ledger.wellFormed_withRequest (d.reachable d.side).accounted.wellFormed _ _ _ _

theorem slotAt_ledger_of_other (d : Dialogue) {handle : Handle} {command : Command}
    (other : ¬ (d.order.handle = handle ∧ d.order.command = command)) :
    d.ledger.slotAt handle command = d.exchange.ledger.slotAt handle command := by
  have wf := (d.reachable d.side).accounted.wellFormed
  exact (Ledger.slotAt_withRequest wf ..).trans (if_neg other)

theorem Asking.untouched (asking : d.Asking stage s answers) {handle : Handle} {command : Command}
    (other : ¬ (d.order.handle = handle ∧ d.order.command = command)) :
    s.exchange.ledger.slotAt handle command = d.exchange.ledger.slotAt handle command := by
  rw [asking.ledger]
  split
  · rw [Ledger.slotAt_withoutRequest d.wellFormed_ledger, if_neg other,
      d.slotAt_ledger_of_other other]
  · exact d.slotAt_ledger_of_other other

/-- The slot of the request is free once the response has come. -/
theorem Asking.free (asking : d.Asking stage s answers) (told : stage.told = true) :
    (s.exchange.ledger.slotAt d.order.handle d.order.command).outgoing.pending = false := by
  rw [asking.ledger, if_pos told, Ledger.slotAt_withoutRequest d.wellFormed_ledger,
    if_pos ⟨rfl, rfl⟩]
  rfl

end Dialogue

end HubRelay
