import HubRelay.Proofs.Dispatch
import HubRelay.Proofs.Responses

/-!
Callers that were released, and requests that were spared.

A caller for whom a release lies in the box returns with a reset as soon as it looks, whatever
happens until then (`Session.Leaves`). A request is pending as long as no move ends it; its caller
goes on waiting for it as long as nothing is handed over under its key besides
(`Session.Withstands`).
-/

namespace HubRelay

/-! ### Callers that were released -/

theorem Exchange.poll_released {x : Exchange} {wait : ReplyWait}
    (released : x.awaited.mailFor wait.call = .released) (now : Instant) :
    x.poll (.reply wait) now =
      ({ x with awaited := x.awaited.forget wait.call },
        .finished (.replied (.error .reset))) := by
  simp only [poll, pollReply, released]
  rfl

namespace Session

variable {settings : Settings} {s s' : Session} {e : Entry} {task : Task} {wait : ReplyWait}

/-- A caller that waits for a response does not get one any more: it has returned with a reset, or
it will as soon as it looks. -/
inductive Released (s : Session) (task : Task) (call : CallId) : Prop where
  | returned : s.history.outcomes task.id = [.replied (.error .reset)] → Released s task call
  | free : task ∈ s.tasks → s.exchange.awaited.mailFor call = .released →
      (∀ now, ∃ s', s.step (.resume task.id .woken now) = some s' ∧
        s'.history.outcomes task.id = [.replied (.error .reset)]) → Released s task call

/-- The operation of a caller that was sent away by a reset: while it is under way, it is the task
that it was, and the release lies in its box. Nothing that happens later can take the release out
again. -/
structure Leaves (s : Session) (task : Task) (call : CallId) : Prop where
  old : call < s.exchange.awaited.calls
  known : task.id < s.started
  ends : s.EndsLike task.id (.replied (.error .reset))
  under : ∀ other ∈ s.tasks, other.id = task.id →
    other = task ∧ s.exchange.awaited.Got call .released

/-- A caller that looks finds that it was released. -/
theorem Moved.progress_of_released (moved : s.Moved s' e) {reply : Reply}
    (turn : e.turn = .goesOn (.blocked (.reply wait)) reply)
    (released : s.exchange.awaited.mailFor wait.call = .released) :
    e.progress = .finished (.replied (.error .reset)) := by
  have turned := moved.turned
  rw [turn] at turned
  cases reply with
  | woken =>
      rw [← moved.before] at released
      replace turned := Option.some.inj turned
      rw [Exchange.poll_released released] at turned
      exact (Prod.mk.inj turned).2.symm
  | _ => cases turned

theorem Leaves.step (leaves : s.Leaves task wait.call) (reached : Reachable settings s)
    (activity : task.activity = .blocked (.reply wait)) (moved : s.Moved s' e) :
    s'.Leaves task wait.call := by
  have orderly := reached.orderly
  have more := (moved.attends reached.accounted).calls
  rw [moved.before, ← moved.after] at more
  by_cases own : e.operation = task.id
  · -- The operation itself moves: it can only look, and then it ends.
    obtain ⟨former, reply, mem, turn, id⟩ :
        ∃ former reply, former ∈ s.tasks ∧ e.turn = .goesOn former.activity reply ∧
          e.operation = former.id := by
      cases moved.mover with
      | starts _ fresh => exact absurd leaves.known (by rw [← own, fresh]; exact Nat.lt_irrefl _)
      | @resumes former reply mem turn id => exact ⟨former, reply, mem, turn, id⟩
    obtain ⟨rfl, got⟩ := leaves.under former mem (id.symm.trans own)
    have progress := moved.progress_of_released (activity ▸ turn) got.mail
    refine ⟨Nat.lt_of_lt_of_le leaves.old more, Nat.lt_of_lt_of_le leaves.known moved.started_le,
      leaves.ends.own orderly moved own ⟨former, mem, rfl⟩ ?_, ?_⟩
    · intro result same
      exact Progress.finished.inj (same.symm.trans progress)
    · intro other under same
      rcases moved.task_cases orderly under with mine | ⟨-, apart⟩
      · simp [Entry.tasks, progress] at mine
      · exact absurd (same.trans own.symm) apart
  · refine ⟨Nat.lt_of_lt_of_le leaves.old more, Nat.lt_of_lt_of_le leaves.known moved.started_le,
      leaves.ends.other orderly moved own, ?_⟩
    intro other under same
    rcases moved.task_cases orderly under with mine | ⟨before, -⟩
    · exact absurd ((moved.task_id mine).1.symm.trans same) own
    · obtain ⟨rfl, got⟩ := leaves.under other before same
      -- Only the caller itself takes its mail, and no two operations have one caller.
      refine ⟨rfl, moved.keeps got leaves.old fun mover => own ?_⟩
      cases turn : e.turn with
      | begins => rw [turn] at mover; cases mover
      | goesOn former reply =>
          rw [turn] at mover
          obtain ⟨task, mem, id, -, rfl⟩ := moved.former turn
          rw [← id]
          exact reached.attended.apart task mem other before wait.call mover
            (congrArg Activity.caller? activity)

theorem Leaves.released (leaves : s.Leaves task wait.call) (reached : Reachable settings s)
    (activity : task.activity = .blocked (.reply wait)) : s.Released task wait.call := by
  rcases leaves.ends with ⟨⟨other, mem, same⟩, none⟩ | ⟨-, ended⟩
  · obtain ⟨rfl, got⟩ := leaves.under other mem same
    refine .free mem got.mail fun now => ?_
    have goesOn : (s.exchange.proceed other.activity .woken now).isSome = true := by
      rw [activity]
      rfl
    obtain ⟨s', stepped⟩ := exists_step_resume reached.orderly mem goesOn
    obtain ⟨former, under, same, segment, proceeds, moved⟩ := moved_resuming stepped
    obtain rfl := List.inj_on_of_nodup_map reached.orderly.distinct under mem same
    have progress := moved.progress_of_released
      (congrArg (Turn.goesOn · Reply.woken) activity) got.mail
    exact ⟨s', stepped, leaves.ends.finished moved rfl ⟨former, mem, rfl⟩ progress⟩
  · exact .returned ended

theorem Leaves.run {moves : List Move} (leaves : s.Leaves task wait.call)
    (reached : Reachable settings s) (activity : task.activity = .blocked (.reply wait))
    (ran : s.run moves = some s') : s'.Leaves task wait.call := by
  induction moves generalizing s with
  | nil =>
      obtain rfl := Option.some.inj ran
      exact leaves
  | cons move moves ih =>
      obtain ⟨next, stepped, rest⟩ := Option.bind_eq_some_iff.mp ran
      obtain ⟨e, moved⟩ := moved_of_step stepped
      exact ih (leaves.step reached activity moved) (reached.step stepped) rest

end Session

/-! ### Requests that were spared -/

/-- Whether a caller waits for the second time. -/
def Activity.second : Activity → Bool
  | .blocked (.reply wait) => wait.second
  | _ => false

/-- A caller that makes a turn looks for its response. -/
theorem Turn.awaits_of_caller? {x : Exchange} {now : Instant} {activity : Activity} {reply : Reply}
    {segment : Segment} {call : CallId} (caller : activity.caller? = some call)
    (turned : x.turn (.goesOn activity reply) now = some segment) :
    ∃ wait, Turn.AwaitsReply now (.goesOn activity reply) wait ∧ wait.call = call ∧
      activity.request? = some wait.key ∧ wait.second = activity.second := by
  unfold Activity.caller? at caller
  split at caller
  · next message other span =>
    obtain rfl := Option.some.inj caller
    cases reply with
    | transport accepted => exact ⟨_, .offered rfl, rfl, rfl, rfl⟩
    | _ => cases turned
  · next wait =>
    obtain rfl := Option.some.inj caller
    cases reply with
    | woken => exact ⟨wait, .waiting, rfl, rfl, rfl⟩
    | _ => cases turned
  · cases caller

theorem Exchange.not_awaits_of_refused {x : Exchange} (wf : x.ledger.WellFormed) {o : Offering}
    {caller : Option (CallId × Span)} (purpose : o.purpose = .request caller)
    (pending : x.ledger.awaits o.message.header.key = true) (now : Instant) :
    (x.offered o false now).1.ledger.awaits o.message.header.key = false := by
  obtain ⟨message, purpose'⟩ := o
  obtain rfl : purpose' = .request caller := purpose
  have aborted := Ledger.abort_eq x.ledger message.header.key
  rw [if_pos pending] at aborted
  simp only [Header.key] at aborted
  have freed : (x.offered ⟨message, .request caller⟩ false now).1.ledger =
      x.ledger.withoutRequest message.header.handle message.header.command := by
    simp only [offered, requestRefused, aborted]
    cases caller <;> rfl
  rw [freed, Ledger.awaits_withoutRequest wf]
  exact if_pos ⟨rfl, rfl⟩

/-- A move by which a request ends, or by which a response is handed over under its key. -/
inductive Entry.Ends (e : Entry) (key : RequestKey) : Prop where
  | ended : key ∈ e.ended → Ends e key
  | answered {m : Message} : m ∈ e.posts → m.header.key = key → Ends e key

namespace Session

variable {settings : Settings} {s s' : Session} {e : Entry} {key : RequestKey} {call : CallId}

theorem Moved.awaits_of_not_ended (moved : s.Moved s' e) (accounted : s.Accounted)
    (pending : s.exchange.ledger.awaits key = true) (goesOn : key ∉ e.ended) :
    s'.exchange.ledger.awaits key = true := by
  have sound := moved.sound accounted.wellFormed
  rw [moved.after]
  rw [← moved.before] at pending
  by_contra gone
  exact goesOn (sound.mem_ended.mpr ⟨pending, Bool.not_eq_true _ ▸ gone⟩)

/-- A request is pending, and its caller waits for it. This is kept by all moves but those in
`Entry.Ends`, and by the looks of the caller before its time is over. -/
structure Withstands (s : Session) (key : RequestKey) (call : CallId) : Prop where
  pending : s.exchange.ledger.awaits key = true
  old : call < s.exchange.awaited.calls
  stands : s.exchange.awaited.Stands key call
  first : ∀ task ∈ s.tasks, task.activity.caller? = some call →
    task.activity.request? = some key ∧ task.activity.second = false

theorem Moved.withstands (moved : s.Moved s' e) (reached : Reachable settings s)
    (reached' : Reachable settings s') {span : Span} {r : Registration}
    (asks : e.Asks key span r) : s'.Withstands key s.exchange.awaited.calls := by
  have sound := moved.sound reached.accounted.wellFormed
  have pending := (sound.mem_begun.mp (asks.begun ▸ List.mem_singleton_self key)).1
  have awaited := asks.awaited
  rw [← moved.after] at pending awaited
  rw [moved.before] at awaited
  obtain ⟨message, same, offers⟩ := asks.offers
  constructor
  · exact pending
  · rw [awaited]
    exact Nat.lt_succ_self _
  · refine reached'.single.stands ?_ ?_
    · rw [awaited]
      exact List.mem_append_right _ List.mem_cons_self
    · rw [awaited]
      exact reached.numbered.mailFor_enlist key
  · intro task mem caller
    rcases moved.task_cases reached.orderly mem with mine | ⟨other, -⟩
    · have left := (moved.task_id mine).2.2
      rw [offers] at left
      rw [← Progress.waiting.inj left]
      exact ⟨congrArg some same, rfl⟩
    · exact absurd (reached.attended.old task other _ caller) (Nat.lt_irrefl _)

/-- A caller whose request is pending finds nothing when it looks, and goes on waiting. -/
theorem Withstands.looks (withstands : s.Withstands key call) (reached : Reachable settings s)
    (moved : s.Moved s' e) (pending : s'.exchange.ledger.awaits key = true)
    (mover : e.turn.caller? = some call) :
    e.after = e.before ∧ ∃ activity, e.progress = .waiting activity ∧
      activity.request? = some key ∧ activity.second = false := by
  have wf := (moved.sound reached.accounted.wellFormed).before
  have nothing := withstands.stands.nothing
  have before := withstands.pending
  rw [moved.after] at pending
  rw [← moved.before] at nothing before
  cases turn : e.turn with
  | begins => rw [turn] at mover; cases mover
  | goesOn former reply =>
      rw [turn] at mover
      have turned := moved.turned
      rw [turn] at turned
      obtain ⟨wait, awaits, rfl, request, second⟩ := Turn.awaits_of_caller? mover turned
      obtain ⟨task, mem, -, -, rfl⟩ := moved.former turn
      obtain ⟨same, first⟩ := withstands.first task mem mover
      obtain rfl := Option.some.inj (request.symm.trans same)
      rw [first] at second
      have unfinished : e.after.ledger ≠
          e.before.ledger.withoutRequest wait.key.handle wait.key.command := by
        intro freed
        rw [freed, Ledger.awaits_withoutRequest wf] at pending
        simp at pending
      have replied := replied_of_turn awaits turned
      generalize e.after = after at replied unfinished ⊢
      generalize e.progress = progress at replied ⊢
      generalize Turn.goesOn task.activity reply = t at replied
      -- Without mail, and with its request pending, a caller can wait or give up; the latter would
      -- free the slot.
      cases replied with
      | delivered mail | released mail =>
          rw [nothing] at mail
          cases mail
      | waits => exact ⟨rfl, _, rfl, rfl, second⟩
      | again _ _ _ idle =>
          rw [before] at idle
          cases idle
      | gaveUp | refused => exact absurd rfl unfinished
      | overdue _ late =>
          rcases late with again | idle
          · rw [second] at again
            cases again
          · rw [before] at idle
            cases idle

/-- Only its own look, the end of the request or a response takes a caller out of its waiting. -/
theorem Withstands.stands_of_other (withstands : s.Withstands key call)
    (reached : Reachable settings s) (moved : s.Moved s' e) (goesOn : ¬ e.Ends key)
    (pending : s'.exchange.ledger.awaits key = true) (other : e.turn.caller? ≠ some call) :
    s'.exchange.awaited.Stands key call := by
  have sound := moved.sound reached.accounted.wellFormed
  have before := withstands.pending
  rcases moved.fate reached.attended reached.numbered reached.single reached.accounted
      withstands.stands other with stays | ⟨m, mem, same, -⟩ | ⟨frees, -⟩
  · exact stays
  · exact absurd (.answered mem same) goesOn
  · -- Whatever else frees a caller finds its slot idle or leaves it idle.
    rw [moved.after] at pending
    rw [← moved.before] at before
    cases frees with
    | forgotten gone =>
        rw [sound.not_awaits_of_restarts gone] at pending
        cases pending
    | begun mem =>
        rw [(sound.mem_begun.mp mem).2] at before
        cases before
    | refused turn purpose same awaits =>
        have turned := moved.turned
        rw [turn] at turned
        have freed := Exchange.not_awaits_of_refused sound.before purpose (same ▸ awaits) e.now
        rw [Option.some.inj turned, same, pending] at freed
        cases freed

theorem Withstands.first_of_other (withstands : s.Withstands key call)
    (reached : Reachable settings s) (moved : s.Moved s' e) (other : e.turn.caller? ≠ some call)
    {task : Task} (mem : task ∈ s'.tasks) (caller : task.activity.caller? = some call) :
    task.activity.request? = some key ∧ task.activity.second = false := by
  rcases moved.task_cases reached.orderly mem with mine | ⟨before, -⟩
  · obtain ⟨key', request⟩ := Activity.request?_of_caller? caller
    rcases (moved.attends reached.accounted).leaves _ _ (moved.task_id mine).2.2 request with
      ⟨-, new⟩ | ⟨-, former, reply, turn, -, same⟩
    · have number := (new call caller).1
      rw [moved.before] at number
      exact absurd withstands.old (number ▸ Nat.lt_irrefl _)
    · refine absurd ?_ other
      rw [turn]
      exact same.symm.trans caller
  · exact withstands.first task before caller

theorem Withstands.step (withstands : s.Withstands key call) (reached : Reachable settings s)
    (moved : s.Moved s' e) (goesOn : ¬ e.Ends key) : s'.Withstands key call := by
  have accounted := reached.accounted
  have pending := moved.awaits_of_not_ended accounted withstands.pending fun mem =>
    goesOn (.ended mem)
  have more := (moved.attends accounted).calls
  rw [moved.before, ← moved.after] at more
  have old := Nat.lt_of_lt_of_le withstands.old more
  by_cases mover : e.turn.caller? = some call
  · obtain ⟨same, activity, left, request, first⟩ :=
      withstands.looks reached moved pending mover
    refine ⟨pending, old, ?_, ?_⟩
    · rw [moved.after, same, moved.before]
      exact withstands.stands
    · intro task mem caller
      rcases moved.task_cases reached.orderly mem with mine | ⟨before, -⟩
      · have waits := (moved.task_id mine).2.2
        obtain rfl := Progress.waiting.inj (left.symm.trans waits)
        exact ⟨request, first⟩
      · exact withstands.first task before caller
  · exact ⟨pending, old, withstands.stands_of_other reached moved goesOn pending mover,
      fun _ mem caller => withstands.first_of_other reached moved mover mem caller⟩

theorem Reachable.withstands (reached : Reachable settings s) {newer past : History}
    (split : s.history = newer ++ e :: past) {span : Span} {r : Registration}
    (asks : e.Asks key span r) (spared : ∀ n ∈ newer, ¬ n.Ends key) :
    s.Withstands key e.before.awaited.calls := by
  revert spared
  refine reached.since (P := fun newer s => (∀ n ∈ newer, ¬ n.Ends key) →
    s.Withstands key e.before.awaited.calls) split ?_ ?_
  · intro s s' before after moved _ _
    rw [moved.before]
    exact moved.withstands before after asks
  · intro newer s s' n before _ _ moved ih spared
    exact (ih fun m mem => spared m (List.mem_cons_of_mem n mem)).step before moved
      (spared n List.mem_cons_self)

theorem Reachable.awaits_of_begun (reached : Reachable settings s) {newer past : History}
    (split : s.history = newer ++ e :: past) (begun : key ∈ e.begun)
    (spared : ∀ n ∈ newer, key ∉ n.ended) : s.exchange.ledger.awaits key = true := by
  revert spared
  refine reached.since (P := fun newer s => (∀ n ∈ newer, key ∉ n.ended) →
    s.exchange.ledger.awaits key = true) split ?_ ?_
  · intro s s' before _ moved _ _
    rw [moved.after]
    exact ((moved.sound before.accounted.wellFormed).mem_begun.mp begun).1
  · intro newer s s' n before _ _ moved ih spared
    exact moved.awaits_of_not_ended before.accounted
      (ih fun m mem => spared m (List.mem_cons_of_mem n mem)) (spared n List.mem_cons_self)

end Session

end HubRelay
