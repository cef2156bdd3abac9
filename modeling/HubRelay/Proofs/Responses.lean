import HubRelay.Proofs.Session.Awaiting
import HubRelay.Proofs.Session.Segments

/-!
Callers that await a response get their own, or learn why there is none.

`Entry.Concludes` says so of every move of a caller after its request has begun. The number of a
request has eight bits and starts again at zero when slots are forgotten, while an endpoint may take
its time to answer. So this holds unless an operation that had started before the caller hands over
a response under the number of the caller's request, or takes a request under that number back.
-/

namespace HubRelay

namespace Turn.Replied

variable {x after : Exchange} {now : Instant} {turn : Turn} {wait : ReplyWait} {p : Progress}
  {outcome : Outcome}

/-- A response comes from the mail, or stands for one that never came. -/
theorem of_ok {message : Message}
    (replied : turn.Replied x now wait (after, .finished (.replied (.ok message)))) :
    x.awaited.mailFor wait.call = .delivered message ∨
      x.awaited.mailFor wait.call = .nothing ∧ x.ledger.awaits wait.key = true ∧
        x.timeoutReply (x.ledger.slotAt wait.key.handle wait.key.command).lapsed = .ok message := by
  obtain ⟨result, reply⟩ : ∃ result, result = Except.ok message := ⟨_, rfl⟩
  rw [← reply] at replied
  cases replied with
  | delivered mail =>
      obtain rfl := Except.ok.inj reply
      exact .inl mail
  | gaveUp nothing _ _ pending => exact .inr ⟨nothing, pending, reply⟩
  | released | overdue | refused => cases reply

/-- Why a call fails. -/
theorem of_error {error : ExchangeError}
    (replied : turn.Replied x now wait (after, .finished (.replied (.error error)))) :
    error = .reset ∧ x.awaited.mailFor wait.call = .released ∨
      turn.ending = .refused ∧ error = .refused wait.key.handle wait.key.command ∨
      x.awaited.mailFor wait.call = .nothing ∧
        (error = .waitTimedOut wait.span ∧
            (wait.second = true ∨ x.ledger.awaits wait.key = false) ∨
          x.ledger.awaits wait.key = true ∧
            x.timeoutReply (x.ledger.slotAt wait.key.handle wait.key.command).lapsed =
              .error error) := by
  obtain ⟨result, reply⟩ : ∃ result : Except ExchangeError Message, result = .error error :=
    ⟨_, rfl⟩
  rw [← reply] at replied
  cases replied with
  | delivered => cases reply
  | released mail =>
      obtain rfl := Except.error.inj reply
      exact .inl ⟨rfl, mail⟩
  | gaveUp nothing _ _ pending => exact .inr (.inr ⟨nothing, .inr ⟨pending, reply⟩⟩)
  | overdue nothing ended =>
      obtain rfl := Except.error.inj reply
      exact .inr (.inr ⟨nothing, .inl ⟨rfl, ended⟩⟩)
  | refused =>
      obtain rfl := Except.error.inj reply
      exact .inr (.inl ⟨rfl, rfl⟩)

/-- A response that is there is returned, unless the transport refuses the frame of a request that
is still pending. -/
theorem of_delivered {message : Message} (replied : turn.Replied x now wait (after, p))
    (mail : x.awaited.mailFor wait.call = .delivered message) :
    p = .finished (.replied (.ok message)) ∨
      x.ledger.awaits wait.key = true ∧
        p = .finished (.replied (.error (.refused wait.key.handle wait.key.command))) := by
  cases replied with
  | delivered other =>
      rw [mail] at other
      obtain rfl := Mail.delivered.inj other
      exact .inl rfl
  | refused _ pending => exact .inr ⟨pending, rfl⟩
  | released other | waits other | again other | gaveUp other | overdue other =>
      rw [mail] at other
      cases other

/-- A caller that returns while its request is pending, with nothing to show for it, ends it. Nobody
else will, since only a response, a scan or a reset would. -/
theorem of_unanswered (replied : turn.Replied x now wait (after, .finished outcome))
    (nothing : x.awaited.mailFor wait.call = .nothing) (first : wait.second = false)
    (pending : x.ledger.awaits wait.key = true) :
    after.ledger = x.ledger.withoutRequest wait.key.handle wait.key.command := by
  cases replied with
  | delivered mail | released mail =>
      rw [nothing] at mail
      cases mail
  | gaveUp | refused => rfl
  | overdue _ ended =>
      rw [first, pending] at ended
      simp at ended

/-- A caller that looks takes its own request back, if any. -/
theorem ledger_cases (replied : turn.Replied x now wait (after, p)) :
    after.ledger = x.ledger ∨
      after.ledger = x.ledger.withoutRequest wait.key.handle wait.key.command := by
  cases replied with
  | delivered | released | waits | again | overdue => exact .inl rfl
  | gaveUp | refused => exact .inr rfl

/-- A caller that returns leaves no mail behind, and takes itself out of the table unless it had
mail. -/
theorem of_finished (replied : turn.Replied x now wait (after, .finished outcome)) :
    (∃ result, outcome = .replied result) ∧
      (after.awaited = x.awaited.forget wait.call ∧ x.awaited.mailFor wait.call ≠ .nothing ∨
        after.awaited = (x.awaited.release wait.key).forget wait.call) := by
  cases replied with
  | delivered mail | released mail => exact ⟨⟨_, rfl⟩, .inl ⟨rfl, by rw [mail]; nofun⟩⟩
  | gaveUp | overdue | refused => exact ⟨⟨_, rfl⟩, .inr rfl⟩

end Turn.Replied

/-- What a waiting caller ends, it gives up or has had refused. -/
theorem Turn.AwaitsReply.ending {now : Instant} {turn : Turn} {wait : ReplyWait}
    (awaits : turn.AwaitsReply now wait) : turn.ending = .gaveUp ∨ turn.ending = .refused := by
  cases awaits with
  | waiting => exact .inl rfl
  | @offered o call span accepted =>
      cases accepted with
      | true => exact .inl rfl
      | false => exact .inr rfl

/-- A caller is told when the transport refuses its request while that is pending. -/
theorem Turn.AwaitsReply.refused {x : Exchange} {now : Instant} {turn : Turn} {wait : ReplyWait}
    {segment : Segment} (awaits : turn.AwaitsReply now wait)
    (turned : x.turn turn now = some segment) (ending : turn.ending = .refused)
    (pending : x.ledger.awaits wait.key = true) :
    segment.2 = .finished (.replied (.error (.refused wait.key.handle wait.key.command))) := by
  cases awaits with
  | waiting => cases ending
  | @offered o call span accepted purpose =>
      cases accepted with
      | true => cases ending
      | false =>
          obtain rfl := Option.some.inj turned
          obtain ⟨message, purpose'⟩ := o
          obtain rfl : purpose' = .request (some (call, span)) := purpose
          have aborted := Ledger.abort_eq x.ledger message.header.key
          rw [if_pos pending] at aborted
          simp only [Header.key] at aborted
          simp only [Exchange.offered, Exchange.requestRefused, aborted]
          rfl

/-- A caller that is forgotten has no mail. -/
theorem Awaited.mailFor_forget (a : Awaited) (call : CallId) :
    (a.forget call).mailFor call = .nothing := by
  rw [mailFor_eq_nothing_iff]
  rintro ⟨m, mem, same⟩
  simpa [same] using (List.mem_filter.mp mem).2

/-- A pending request that is reported as lapsed is reported under its key. -/
theorem Ledger.key_lapsed {l : Ledger} (wf : l.WellFormed) {key : RequestKey}
    (pending : l.awaits key = true) : (l.slotAt key.handle key.command).lapsed.key = key := by
  obtain ⟨slot, mem, rfl⟩ := List.mem_map.mp ((mem_pendingKeys wf).mpr pending)
  have known := slot?_of_mem wf (Array.mem_toList_iff.mp (List.mem_filter.mp mem).1)
  have found : l.slotAt slot.key.handle slot.key.command = slot := by
    show (l.slot? slot.handle slot.command).getD _ = slot
    rw [known]
    rfl
  rw [found]
  rfl

namespace Session

variable {settings : Settings} {s s' : Session} {recent past : History} {e m : Entry}
  {key : RequestKey} {span : Span} {r : Registration} {call : CallId}

/-! ### What the mail of a caller says -/

namespace Waits

variable (waits : s.Waits recent key call)

include waits

/-- A caller without mail was handed nothing, and its handle was not forgotten. -/
theorem of_nothing (nothing : s.exchange.awaited.mailFor call = .nothing) :
    recent.forgets key.handle = false ∧ recent.handed key = [] := by
  cases waits with
  | stands calm none => exact ⟨calm, none⟩
  | delivered _ got | released _ _ got => exact absurd nothing (got.mail ▸ got.some)

/-- A message in the mail was handed over since the caller began to wait. -/
theorem of_delivered {message : Message}
    (mail : s.exchange.awaited.mailFor call = .delivered message) :
    message ∈ recent.handed key := by
  cases waits with
  | stands _ _ stands =>
      rw [stands.nothing] at mail
      cases mail
  | delivered mem got =>
      rw [got.mail] at mail
      obtain rfl := Mail.delivered.inj mail
      exact mem
  | released _ _ got =>
      rw [got.mail] at mail
      cases mail

/-- Whoever was released belongs to a handle that was forgotten. -/
theorem of_released (mail : s.exchange.awaited.mailFor call = .released) :
    recent.forgets key.handle = true := by
  cases waits with
  | stands _ _ stands =>
      rw [stands.nothing] at mail
      cases mail
  | delivered _ got =>
      rw [got.mail] at mail
      cases mail
  | released gone => exact gone

/-- A caller that has mail has left the table, and any other leaves it when it is released. -/
theorem gone_of_mail (some : s.exchange.awaited.mailFor call ≠ .nothing) (other : RequestKey) :
    (other, call) ∉ s.exchange.awaited.waiting := by
  cases waits with
  | stands _ _ stands => exact absurd stands.nothing some
  | delivered _ got | released _ _ got => exact got.gone other

/-- A key that is released has no caller. -/
theorem gone_of_release (other : RequestKey) :
    (other, call) ∉ (s.exchange.awaited.release key).waiting := by
  cases waits with
  | stands _ _ stands =>
      have left := stands.release key
      rw [if_pos rfl] at left
      exact left.gone other
  | delivered _ got | released _ _ got => exact (got.release key).gone other

end Waits

/-! ### The moves of a caller -/

/-- A move of the caller of the request that began in the move `e`, with what is known of it. It
gathers what the lemmas below have in common, so that each of them is about a single way to return.
-/
structure Looks (settings : Settings) (s s' : Session) (recent past : History) (e m : Entry)
    (key : RequestKey) (span : Span) (r : Registration) (wait : ReplyWait) : Prop where
  since : s.Since settings recent past e key span r
  after : Reachable settings s'
  moved : s.Moved s' m
  waits : s.Waits recent key e.before.awaited.calls
  reports : ∀ message ∈ recent.handed key, s.Reports e key r message
  old : e.before.awaited.calls < s.exchange.awaited.calls
  awaits : m.turn.AwaitsReply m.now wait
  serves : wait.Serves e key span (m :: recent) s.history

/-- A caller that moves looks at its mail with all that has happened in sight. -/
theorem Awaiting.looks (awaiting : s.Awaiting recent e key span r)
    (since : s.Since settings recent past e key span r) (after : Reachable settings s')
    (moved : s.Moved s' m) (own : m.operation = e.operation) :
    ∃ wait, Looks settings s s' recent past e m key span r wait := by
  obtain ⟨task, under, id, reply, goesOn⟩ := since.task_of_own moved own
  have activity := awaiting.activity task under id
  have old := since.reached.attended.old task under _ activity.caller
  obtain ⟨wait, awaits, serves⟩ := activity.turn goesOn moved.turned own
  exact ⟨wait, since, after, moved, awaiting.waits task under id, awaiting.reports, old, awaits,
    serves⟩

namespace Looks

variable {wait : ReplyWait} (looks : Looks settings s s' recent past e m key span r wait)

include looks

/-- It finds one of the three things that mail can be. -/
theorem replied : m.turn.Replied s.exchange m.now wait (s'.exchange, m.progress) := by
  rw [looks.moved.after, ← looks.moved.before]
  exact replied_of_turn looks.awaits looks.moved.turned

/-- A caller for which nothing has come finds its endpoint in place. -/
theorem timeoutReply_eq (calm : recent.forgets key.handle = false)
    (pending : s.exchange.ledger.awaits key = true) :
    ∃ lapsed, lapsed.key = key ∧
      s.exchange.timeoutReply (s.exchange.ledger.slotAt key.handle key.command).lapsed =
        .ok (r.timeoutMessage lapsed) := by
  have same := Ledger.key_lapsed looks.since.reached.accounted.wellFormed pending
  refine ⟨_, same, ?_⟩
  have handle := congrArg RequestKey.handle same
  simp only [Lapsed.key] at handle
  rw [Exchange.timeoutReply, handle, looks.since.stands calm]

/-- A message that it returns is a response to its own slot, under its own number. -/
theorem own {message : Message} (progress : m.progress = .finished (.replied (.ok message))) :
    message.header.key = key ∧ message.header.type = .responseTo r.descriptor.role := by
  have replied := looks.replied
  rw [progress] at replied
  rcases replied.of_ok with mail | ⟨nothing, pending, reply⟩
  · rw [looks.serves.caller] at mail
    have reports := looks.reports message (looks.waits.of_delivered mail)
    exact ⟨reports.key, reports.type⟩
  · rw [looks.serves.caller] at nothing
    rw [looks.serves.request] at pending reply
    obtain ⟨lapsed, same, stands⟩ :=
      looks.timeoutReply_eq (looks.waits.of_nothing nothing).1 pending
    rw [reply] at stands
    rw [Except.ok.inj stands]
    exact ⟨same, rfl⟩

/-- What was handed over is what it returns, unless its handle was forgotten and the transport
refused the request. -/
theorem handed {message : Message} (mem : message ∈ recent.handed key) :
    m.progress = .finished (.replied (.ok message)) ∨ recent.forgets key.handle = true ∧
      m.progress = .finished (.replied (.error (.refused key.handle key.command))) := by
  have reports := looks.reports message mem
  have mail : s.exchange.awaited.mailFor wait.call = .delivered message := by
    rw [looks.serves.caller]
    cases looks.waits with
    | stands _ none | released _ none =>
        rw [none] at mem
        cases mem
    | delivered other got =>
        rw [got.mail, reports.unique looks.since.reached (looks.reports _ other)]
  apply (looks.replied.of_delivered mail).imp_right
  rw [looks.serves.request]
  rintro ⟨pending, refused⟩
  refine ⟨?_, refused⟩
  cases gone : recent.forgets key.handle with
  | true => rfl
  | false =>
      obtain ⟨x, ended, request, -⟩ := reports.told
      exact absurd request ((looks.since.of_awaits gone pending).1 x ended)

/-- It reports a reset only if its handle was forgotten. -/
theorem reset (progress : m.progress = .finished (.replied (.error .reset))) :
    recent.forgets key.handle = true := by
  have replied := looks.replied
  rw [progress] at replied
  rcases replied.of_error with ⟨-, mail⟩ | ⟨-, other⟩ | ⟨nothing, ⟨other, -⟩ | ⟨pending, reply⟩⟩
  · rw [looks.serves.caller] at mail
    exact looks.waits.of_released mail
  · cases other
  · cases other
  · rw [looks.serves.caller] at nothing
    rw [looks.serves.request] at pending reply
    obtain ⟨lapsed, -, stands⟩ := looks.timeoutReply_eq (looks.waits.of_nothing nothing).1 pending
    rw [reply] at stands
    cases stands

/-- As long as its handle is not forgotten it fails if the transport has refused the request, or if
its time runs out when the request has already ended and nothing was handed over. -/
theorem fails (calm : recent.forgets key.handle = false) {error : ExchangeError}
    (progress : m.progress = .finished (.replied (.error error))) :
    m.turn.ending = .refused ∧ error = .refused key.handle key.command ∨
      error = .waitTimedOut span ∧ recent.handed key = [] ∧ ¬ s.history.Unended e.operation := by
  have replied := looks.replied
  rw [progress] at replied
  rcases replied.of_error with ⟨-, mail⟩ | refused | ⟨nothing, ⟨late, ended⟩ | ⟨pending, reply⟩⟩
  · rw [looks.serves.caller] at mail
    rw [looks.waits.of_released mail] at calm
    cases calm
  · rw [looks.serves.request] at refused
    exact .inl refused
  · rw [looks.serves.caller] at nothing
    rw [looks.serves.patience] at late
    refine .inr ⟨late, (looks.waits.of_nothing nothing).2, ?_⟩
    intro unended
    rcases ended with second | idle
    · exact looks.serves.second second unended
    · rw [looks.serves.request, (looks.since.of_unended unended).1] at idle
      cases idle
  · rw [looks.serves.request] at pending reply
    obtain ⟨lapsed, -, stands⟩ := looks.timeoutReply_eq calm pending
    rw [reply] at stands
    cases stands

/-- As long as its request has not ended, nothing has come for a caller. -/
theorem of_unended (unended : s.history.Unended e.operation) :
    s.exchange.awaited.mailFor wait.call = .nothing ∧ wait.second = false ∧
      s.exchange.ledger.awaits wait.key = true := by
  obtain ⟨pending, calm⟩ := looks.since.of_unended unended
  rw [looks.serves.caller, looks.serves.request]
  refine ⟨?_, ?_, pending⟩
  · cases looks.waits with
    | stands _ _ stands => exact stands.nothing
    | delivered mem =>
        obtain ⟨x, ended, request, -⟩ := (looks.reports _ mem).told
        exact absurd request (unended x ended)
    | released gone =>
        rw [gone] at calm
        cases calm
  · cases second : wait.second with
    | false => rfl
    | true => exact absurd unended (looks.serves.second second)

/-- A caller that returns before its request has ended ends it. -/
theorem ends (unended : s.history.Unended e.operation) {outcome : Outcome}
    (progress : m.progress = .finished outcome) :
    ∃ x ∈ s'.history.ended, x.request = some e.operation ∧ x.move = m := by
  obtain ⟨nothing, first, pending⟩ := looks.of_unended unended
  have wf := looks.since.reached.accounted.wellFormed
  have replied := looks.replied
  rw [progress] at replied
  have freed := replied.of_unanswered nothing first pending
  have ended : wait.key ∈ m.ended := by
    rw [Entry.ended, looks.moved.before, ← looks.moved.after, freed,
      Ledger.ended_withoutRequest wf pending]
    exact List.mem_singleton_self _
  rw [looks.serves.request] at ended pending
  obtain ⟨-, earlier, sent⟩ :=
    looks.since.of_awaits (looks.since.of_unended unended).2 pending
  refine ⟨⟨key, m, s.history⟩, (Accounted.mem_ended_step looks.moved).mpr (.inl ⟨key, ended, rfl⟩),
    ?_, rfl⟩
  rw [Ended.request, Ended.sent, sent]
  rfl

/-- When it returns, its request is not pending any more, unless its handle was forgotten. -/
theorem frees (calm : recent.forgets key.handle = false) {outcome : Outcome}
    (progress : m.progress = .finished outcome) : m.after.ledger.awaits key = false := by
  have wf := looks.since.reached.accounted.wellFormed
  have replied := looks.replied
  rw [progress] at replied
  have freed : (s.exchange.ledger.withoutRequest key.handle key.command).awaits key = false := by
    rw [Ledger.awaits_withoutRequest wf, if_pos ⟨rfl, rfl⟩]
  rw [← looks.moved.after]
  cases pending : s.exchange.ledger.awaits key with
  | false =>
      rcases replied.ledger_cases with same | same
      · rw [same, pending]
      · rw [same, looks.serves.request, freed]
  | true =>
      obtain ⟨unended, -⟩ := looks.since.of_awaits calm pending
      obtain ⟨nothing, first, awaits⟩ := looks.of_unended unended
      rw [replied.of_unanswered nothing first awaits, looks.serves.request, freed]

/-- Whatever it returns, its request has ended and nothing is kept for it any more. -/
theorem returns {outcome : Outcome} (progress : m.progress = .finished outcome) :
    (∃ result, outcome = .replied result) ∧
      (∃ x ∈ s'.history.ended, x.request = some e.operation) ∧
      (∀ other, (other, e.before.awaited.calls) ∉ m.after.awaited.waiting) ∧
      m.after.awaited.mailFor e.before.awaited.calls = .nothing := by
  have replied := looks.replied
  rw [progress] at replied
  obtain ⟨result, left⟩ := replied.of_finished
  rw [looks.serves.caller, looks.serves.request, looks.moved.after] at left
  refine ⟨result, ?_, ?_, ?_⟩
  · by_cases unended : s.history.Unended e.operation
    · obtain ⟨x, ended, request, -⟩ := looks.ends unended progress
      exact ⟨x, ended, request⟩
    · simp only [History.Unended, ne_eq, not_forall, Decidable.not_not] at unended
      obtain ⟨x, ended, request⟩ := unended
      exact ⟨x, (Accounted.mem_ended_step looks.moved).mpr (.inr ended), request⟩
  · intro other mem
    rcases left with ⟨same, some⟩ | same
    · rw [same] at mem
      exact looks.waits.gone_of_mail some other mem
    · rw [same] at mem
      exact looks.waits.gone_of_release other mem
  · rcases left with ⟨same, -⟩ | same
    · rw [same]
      exact Awaited.mailFor_forget _ _
    · rw [same]
      exact Awaited.mailFor_forget _ _

end Looks

end Session

/-- A call begins on a slot as good as new, and the transport accepts its request. -/
theorem Session.Reachable.blocks {settings : Settings} {s : Session}
    (reached : Session.Reachable settings s) {handle : Handle} {command : Command}
    {r : Registration} (found : s.exchange.directory.find? handle = some r)
    (within : command < r.descriptor.commands)
    (new : s.exchange.ledger.slotAt handle command = { handle, command }) {span : Span}
    (positive : 0 < span) :
    ∃ s' e m task, Session.Reachable settings s' ∧ s'.history = m :: e :: s.history ∧
      e.turn = .begins (.sendAndAwait handle command [] span) ∧
      e.Asks ⟨handle, command, 0⟩ span r ∧ m.operation = e.operation ∧ m.begun = [] ∧
      m.restarts handle = false ∧
      s'.exchange = { s.exchange with
        ledger := s.exchange.ledger.withRequest handle command (some span) 0
        awaited := (s.exchange.awaited.enlist ⟨handle, command, 0⟩).2 } ∧
      s'.exchange.ledger.awaits ⟨handle, command, 0⟩ = true ∧
      s'.tasks = task :: s.tasks ∧ task.id = e.operation ∧
      task.activity = .blocked (.reply ⟨s.exchange.awaited.calls, ⟨handle, command, 0⟩, span,
        Instant.after? 0 span, false⟩) := by
  have wf := reached.accounted.wellFormed
  have idle : (s.exchange.ledger.slotAt handle command).outgoing.pending = false := by
    rw [new]
  have number : (s.exchange.ledger.slotAt handle command).nextTransaction = 0 := by
    rw [new]
  have starts := Exchange.start_sendAndAwait found within idle [] span 0
  rw [number] at starts
  have nothing := reached.numbered.mailFor_enlist ⟨handle, command, 0⟩
  obtain ⟨s₁, s₂, task, reached₂, id, activity, exchange₁, exchange₂, history₂, tasks₂, -⟩ :=
    reached.startsAndResumes (.sendAndAwait handle command [] span) 0 (.transport true) 0 starts
      (congrArg some (Exchange.offered_waits nothing positive 0))
  refine ⟨s₂, _, _, _, reached₂, history₂, rfl, ?_, id, ?_, ?_, exchange₂, ?_, tasks₂, id, rfl⟩
  · exact
      { turn := ⟨[], rfl⟩
        stood := found
        begun := by
          have begun := Ledger.begun_withRequest wf idle (some span) 0
          rw [number] at begun
          exact begun
        awaited := rfl
        offers := ⟨_, rfl, rfl⟩ }
  · rw [Entry.begun]
    show s₁.exchange.ledger.begun _ = []
    rw [exchange₁]
    exact (Ledger.SendsAlike.refl _).begun_eq (Ledger.wellFormed_withRequest wf _ _ _ _)
  · rw [Entry.restarts, Session.reentry, activity]
  · rw [exchange₂]
    show (s.exchange.ledger.withRequest handle command (some span) 0).awaits _ = true
    rw [Ledger.awaits_withRequest wf, number]
    simp

/-- An endpoint is through with a response, and the caller for whom it is handed over looks at
once. -/
theorem Session.Reachable.hears {settings : Settings} {s : Session}
    (reached : Session.Reachable settings s) {handler caller : Task} (busy : handler ∈ s.tasks)
    (blocked : caller ∈ s.tasks) {role : Registration} {response : Message} {wait : ReplyWait}
    (serves : handler.activity = .serving ⟨role, response, .wakeCaller⟩)
    (waits : caller.activity = .blocked (.reply wait))
    (posted : (s.exchange.awaited.post response).mailFor wait.call = .delivered response) :
    ∃ s' m h, Session.Reachable settings s' ∧ s'.history = m :: h :: s.history ∧
      m.operation = caller.id ∧ m.progress = .finished (.replied (.ok response)) ∧
      m.begun = [] ∧ h.begun = [] ∧ (∀ handle, m.restarts handle = false) ∧
      (∀ handle, h.restarts handle = false) ∧
      s'.exchange.ledger = s.exchange.ledger := by
  have alike := Ledger.SendsAlike.refl s.exchange.ledger
  have wf := reached.accounted.wellFormed
  have apart : caller.id ≠ handler.id := by
    intro same
    obtain rfl := List.inj_on_of_nodup_map reached.orderly.distinct blocked busy same
    rw [serves] at waits
    cases waits
  obtain ⟨s₁, reached₁, exchange₁, history₁, tasks₁, -⟩ := reached.resumes busy (.endpoint .none) 0
    (by rw [serves]; rfl)
  have still : caller ∈ s₁.tasks := by
    rw [tasks₁]
    exact List.mem_append_right _ (List.mem_filter.mpr ⟨blocked, bne_iff_ne.mpr apart⟩)
  have delivered : s₁.exchange.awaited.mailFor wait.call = .delivered response := by
    rw [exchange₁]
    exact posted
  have proceeds : s₁.exchange.proceed caller.activity .woken 0 =
      some (s₁.exchange.poll (.reply wait) 0) := by
    rw [waits]
    rfl
  rw [Exchange.poll_delivered delivered] at proceeds
  obtain ⟨s₂, reached₂, exchange₂, history₂, -⟩ := reached₁.resumes still .woken 0 proceeds
  have ledger₁ : s₁.exchange.ledger = s.exchange.ledger := by
    rw [exchange₁]
    rfl
  refine ⟨s₂, _, _, reached₂, by rw [history₂, history₁], rfl, rfl, ?_, ?_, ?_, ?_, ?_⟩
  · show s₁.exchange.ledger.begun s₁.exchange.ledger = []
    rw [ledger₁]
    exact alike.begun_eq wf
  · exact alike.begun_eq wf
  · intro handle
    rw [Entry.restarts, Session.reentry, waits]
  · intro handle
    rw [Entry.restarts, Session.reentry, serves]
  · rw [exchange₂]
    exact ledger₁

end HubRelay
