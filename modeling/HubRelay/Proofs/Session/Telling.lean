import HubRelay.Proofs.Dispatch
import HubRelay.Proofs.Session.Mail

/-!
A reset tells the endpoints, one after the other.

In its first move it forgets everything and takes down whom it has to tell. The later moves follow
the answers of the endpoints, and anything may happen between them. What has been told and what is
still to be told always make up the list that was taken down, and the later moves change nothing
(`History.Tells`). `Session.Tells` says how far it has come, and that it gets to its end.
-/

namespace HubRelay

namespace Session

variable {s s' : Session} {moves : List Move}

/-- The first move of a run comes before the others. -/
theorem run_start (s : Session) (operation : Operation) (now : Instant) (moves : List Move) :
    s.run (.start operation now :: moves) = (s.start operation now).run moves := rfl

/-- A run only adds to the history. -/
theorem exists_recent (ran : s.run moves = some s') :
    ∃ recent, s'.history = recent ++ s.history := by
  induction moves generalizing s with
  | nil =>
      obtain rfl := Option.some.inj ran
      exact ⟨[], rfl⟩
  | cons move moves ih =>
      obtain ⟨next, stepped, rest⟩ := Option.bind_eq_some_iff.mp ran
      obtain ⟨e, moved⟩ := moved_of_step stepped
      obtain ⟨recent, grown⟩ := ih rest
      exact ⟨recent ++ [e], by rw [grown, moved.history, List.append_assoc]; rfl⟩

/-- An operation that is under way has not ended. -/
theorem Reachable.outcomes_of_under {settings : Settings} (reached : Reachable settings s)
    {task : Task} (mem : task ∈ s.tasks) : s.history.outcomes task.id = [] := by
  induction reached generalizing task with
  | fresh => cases mem
  | @step s s' move before stepped ih =>
      obtain ⟨e, moved⟩ := moved_of_step stepped
      rw [moved.history, History.outcomes_cons]
      rcases moved.task_cases before.orderly mem with mine | ⟨under, other⟩
      · obtain ⟨own, -, progress⟩ := moved.task_id mine
        have none : s.history.outcomes e.operation = [] := by
          cases moved.mover with
          | starts _ fresh => exact fresh ▸ History.outcomes_of_old before.orderly.entries
          | resumes under _ same => exact same ▸ ih under
        rw [own, none, Entry.outcome, if_pos rfl, progress]
        rfl
      · rw [Entry.outcome, if_neg other.symm, ih under]
        rfl

end Session

/-! ### Whom a move tells -/

/-- Where a reset stands that still has `rest` to tell. -/
def Progress.telling : List Registration → Progress
  | [] => .finished .announced
  | r :: rest => .waiting (.announcing ⟨.reset, r, rest⟩)

/-- Whom a move tells of a reset. -/
def Progress.notified : Progress → List Registration
  | .waiting (.announcing ⟨.reset, r, _⟩) => [r]
  | _ => []

/-- Each move of a reset notifies the first of those that are left. -/
theorem Progress.notified_telling (rest : List Registration) :
    (telling rest).notified = rest.take 1 := by
  cases rest <;> rfl

/-- While a reset waits, it waits for the endpoint that it has just notified. -/
theorem Progress.telling_eq_waiting {rest : List Registration} {activity : Activity}
    (waits : telling rest = .waiting activity) :
    ∃ r later, rest = r :: later ∧ activity = .announcing ⟨.reset, r, later⟩ := by
  cases rest with
  | nil => cases waits
  | cons r later => exact ⟨r, later, rfl, (Progress.waiting.inj waits).symm⟩

namespace Exchange

/-- The exchange once everything under way is forgotten. -/
def cleared (x : Exchange) : Exchange :=
  { x with ledger := .empty, awaited := x.awaited.releaseAll }

/-- Announcing a reset does not change the exchange. -/
theorem announce_reset (x : Exchange) (rest : List Registration) :
    x.announce .reset rest = (x, .telling rest) := by
  cases rest <;> rfl

/-- A reset clears the exchange and then tells all endpoints that were registered. -/
theorem start_reset (x : Exchange) (now : Instant) :
    x.start .reset now = (x.cleared, .telling x.directory.entries) :=
  x.cleared.announce_reset x.directory.entries

/-- When an endpoint has been told, the reset turns to the next. -/
theorem proceed_telling {x : Exchange} {r : Registration} {rest : List Registration} {reply : Reply}
    {now : Instant} {segment : Segment}
    (proceeds : x.proceed (.announcing ⟨.reset, r, rest⟩) reply now = some segment) :
    segment = (x, .telling rest) := by
  cases reply with
  | noted =>
      obtain rfl := Option.some.inj proceeds
      exact x.announce_reset rest
  | _ => cases proceeds

end Exchange

/-- A move that offers no frame, calls no handler, comes to no request that has ended and hands no
response over. -/
structure Entry.Silent (e : Entry) : Prop where
  offers : e.progress.offers = []
  called : e.called = []
  reached : e.reached = []
  posts : e.posts = []

/-- The moves of a reset call no message handler. -/
theorem Entry.silent_of_telling {e : Entry} {rest : List Registration}
    (progress : e.progress = .telling rest)
    (turn : e.turn = .begins .reset ∨ ∃ a reply, e.turn = .goesOn (.announcing a) reply) :
    e.Silent := by
  obtain ⟨operation, found, t, now, before, after, p⟩ := e
  simp only at progress turn
  subst progress
  obtain rfl | ⟨a, reply, rfl⟩ := turn
  · cases rest <;> exact ⟨rfl, rfl, rfl, rfl⟩
  · cases rest <;> exact ⟨rfl, rfl, rfl, rfl⟩

namespace History

/-- Who has been told of a reset, in this order. -/
def notified (h : History) : List Registration := h.reverse.flatMap (·.progress.notified)

variable {b e latest : Entry} {earlier h : History}

/-- Whom a history has notified is spread over its moves. -/
theorem notified_cons : notified (e :: h) = notified h ++ e.progress.notified := by
  simp [notified]

/-- Silent moves make no calls. -/
theorem calls_of_silent (silent : ∀ e ∈ h, e.Silent) : h.calls = [] := by
  induction h with
  | nil => rfl
  | cons e past ih =>
      rw [calls, (silent e List.mem_cons_self).reached, ih fun n mem =>
        silent n (List.mem_cons_of_mem e mem)]
      rfl

/-- The moves of a reset that began with `b`. -/
structure Tells (b latest : Entry) (earlier : History) : Prop where
  told : ∃ rest, latest.progress = .telling rest ∧
    History.notified earlier ++ rest = b.before.directory.entries
  silent : ∀ e ∈ latest :: earlier, e.Silent
  unchanged : ∃ later, latest :: earlier = later ++ [b] ∧ ∀ e ∈ later, e.after = e.before

/-- One more move of a reset tells one more endpoint. -/
theorem Tells.goesOn {activity : Activity} {reply : Reply} (tells : Tells b latest earlier)
    (waits : latest.progress = .waiting activity) (turn : e.turn = .goesOn activity reply)
    (turned : e.before.turn e.turn e.now = some (e.after, e.progress)) :
    Tells b e (latest :: earlier) := by
  obtain ⟨rest, progress, all⟩ := tells.told
  obtain ⟨r, rest, rfl, rfl⟩ := Progress.telling_eq_waiting (progress.symm.trans waits)
  rw [turn] at turned
  obtain ⟨unchanged, left⟩ := Prod.mk.inj (Exchange.proceed_telling turned)
  constructor
  case told =>
    refine ⟨rest, left, ?_⟩
    rw [notified_cons, waits, ← all, List.append_assoc]
    rfl
  case silent =>
    rintro n (_ | ⟨_, mem⟩)
    · exact Entry.silent_of_telling left (.inr ⟨_, _, turn⟩)
    · exact tells.silent n mem
  case unchanged =>
    obtain ⟨later, same, quiet⟩ := tells.unchanged
    refine ⟨e :: later, by rw [same]; rfl, ?_⟩
    rintro n (_ | ⟨_, mem⟩)
    · exact unchanged
    · exact quiet n mem

/-- The moves of a reset form a strand, along which the endpoints are told in order. -/
theorem Strand.tells (strand : Strand b h) (turn : b.turn = .begins .reset)
    (turned : ∀ e ∈ h, e.before.turn e.turn e.now = some (e.after, e.progress)) :
    ∃ latest earlier, h = latest :: earlier ∧ Tells b latest earlier := by
  induction strand with
  | begun =>
      have first := turned b List.mem_cons_self
      rw [turn] at first
      obtain ⟨-, left⟩ :=
        Prod.mk.inj ((Option.some.inj first).symm.trans (b.before.start_reset b.now))
      refine ⟨b, [], rfl, ⟨⟨_, left, rfl⟩, ?_, ⟨[], rfl, List.forall_mem_nil _⟩⟩⟩
      intro e mem
      obtain rfl := List.mem_singleton.mp mem
      exact Entry.silent_of_telling left (.inl turn)
  | goesOn _ waits goesOn ih =>
      obtain ⟨latest, earlier, same, tells⟩ := ih fun e mem => turned e (List.mem_cons_of_mem _ mem)
      obtain ⟨rfl, rfl⟩ := List.cons.inj same
      exact ⟨_, _, rfl, tells.goesOn waits goesOn (turned _ List.mem_cons_self)⟩

end History

namespace Session

/-- How far an operation has come that tells the endpoints `all` of a reset. While it is under way
the last one told has not answered yet, and once the answers are there it is through. -/
inductive Tells (s : Session) (id : OperationId) (all : List Registration) : Prop where
  | through : s.history.outcomes id = [.announced] → (s.history.moves id).notified = all →
      Tells s id all
  | underWay {task : Task} {front rest : List Registration} {r : Registration} :
      task ∈ s.tasks → task.id = id → task.activity = .announcing ⟨.reset, r, rest⟩ →
      s.history.outcomes id = [] → (s.history.moves id).notified = front ++ [r] →
      all = front ++ r :: rest →
      (∀ now, ∃ s', s.run (List.replicate (rest.length + 1) (.resume id .noted now)) = some s' ∧
        s'.history.outcomes id = [.announced]) → Tells s id all

variable {settings : Settings} {s : Session} {b : Entry} {task : Task}

/-- A reset can always go on, whatever else happens in the session. -/
theorem Reachable.step_telling (reached : Reachable settings s) (mem : task ∈ s.tasks)
    {r : Registration} {rest : List Registration}
    (activity : task.activity = .announcing ⟨.reset, r, rest⟩) (now : Instant) :
    ∃ s' e, s.step (.resume task.id .noted now) = some s' ∧ s.Moved s' e ∧
      e.operation = task.id ∧ e.progress = .telling rest := by
  have goesOn : (s.exchange.proceed task.activity .noted now).isSome = true := by
    rw [activity]
    rfl
  obtain ⟨s', stepped⟩ := exists_step_resume reached.orderly mem goesOn
  obtain ⟨other, under, same, segment, proceeds, moved⟩ := moved_resuming stepped
  obtain rfl := List.inj_on_of_nodup_map reached.orderly.distinct under mem same
  rw [activity] at proceeds
  obtain rfl := Exchange.proceed_telling proceeds
  exact ⟨s', _, stepped, moved, rfl, rfl⟩

/-- Nothing but the answers of the endpoints is needed to get through. -/
theorem Reachable.run_telling (reached : Reachable settings s) (mem : task ∈ s.tasks)
    {r : Registration} {rest : List Registration}
    (activity : task.activity = .announcing ⟨.reset, r, rest⟩) (now : Instant) :
    ∃ s', s.run (List.replicate (rest.length + 1) (.resume task.id .noted now)) = some s' ∧
      s'.history.outcomes task.id = [.announced] := by
  induction rest generalizing s task r with
  | nil =>
      obtain ⟨s', e, stepped, moved, own, progress⟩ := reached.step_telling mem activity now
      refine ⟨s', congrArg (Option.bind · _) stepped, ?_⟩
      rw [moved.history, History.outcomes_cons, reached.outcomes_of_under mem, Entry.outcome,
        if_pos own, progress]
      rfl
  | cons next rest ih =>
      obtain ⟨s₁, e, stepped, moved, own, progress⟩ := reached.step_telling mem activity now
      obtain ⟨task', mem', id, activity'⟩ := moved.exists_task progress
      obtain ⟨s', ran, ended⟩ := ih (reached.step stepped) mem' activity'
      rw [id, own] at ran ended
      exact ⟨s', (congrArg (Option.bind · _) stepped).trans ran, ended⟩

/-- In every run the moves of a reset tell the endpoints that were registered when it began. -/
theorem Reachable.moves_tell (reached : Reachable settings s) (mem : b ∈ s.history)
    (turn : b.turn = .begins .reset) :
    ∃ latest earlier, s.history.moves b.operation = latest :: earlier ∧
      History.Tells b latest earlier :=
  (reached.strung mem turn).strand.tells turn fun _ here => reached.of_mem
    (P := fun e => e.before.turn e.turn e.now = some (e.after, e.progress))
    (fun _ moved => moved.turned) (History.mem_moves.mp here).1

/-- Those told so far and those to come are the endpoints of that moment, in their order. -/
theorem Reachable.tells (reached : Reachable settings s) (mem : b ∈ s.history)
    (turn : b.turn = .begins .reset) : s.Tells b.operation b.before.directory.entries := by
  have strung := reached.strung mem turn
  obtain ⟨latest, earlier, moves, tells⟩ := reached.moves_tell mem turn
  have strand := strung.strand
  rw [moves] at strand
  have outcomes := History.outcomes_of_moves moves strand.waited
  obtain ⟨rest, progress, all⟩ := tells.told
  have notified : (s.history.moves b.operation).notified =
      History.notified earlier ++ rest.take 1 := by
    rw [moves, History.notified_cons, progress, Progress.notified_telling]
  rw [progress] at outcomes
  cases rest with
  | nil => exact .through outcomes (notified.trans all)
  | cons r rest =>
      obtain ⟨task, under, id, activity⟩ := strung.waits moves progress
      refine .underWay under id activity outcomes notified all.symm fun now => ?_
      rw [← id]
      exact reached.run_telling under activity now

end Session

end HubRelay
