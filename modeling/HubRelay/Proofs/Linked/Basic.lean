import HubRelay.Proofs.Session.Answers
import HubRelay.Proofs.Session.Segments
import Mathlib.Logic.Function.Basic

/-!
Two exchanges joined by a link, each with a worker that takes what the link brings.

The link puts a frame into the queue at the other end while the operation that offered it still
waits for the answer. So the frame may be taken, and even answered, before that operation goes on;
that is why carrying a frame and going on are moves of their own.

The histories of the two sessions tell which handlers were called and how operations ended.
-/

namespace HubRelay

/-! ### Sides -/

namespace Side

theorem opposite_ne (side : Side) : side.opposite ≠ side := by cases side <;> decide

theorem opposite_opposite (side : Side) : side.opposite.opposite = side := by cases side <;> rfl

theorem eq_or_eq_opposite (side other : Side) : other = side ∨ other = side.opposite := by
  cases side <;> cases other <;> decide

end Side

/-! ### Ends of a link -/

/-- A session at one end of a link: what its worker has yet to take, and the link's answers to
frames whose operations have not gone on yet. -/
structure Port where
  session : Session
  queue : List WorkItem := []
  answers : List (OperationId × Bool) := []

namespace Port

def take? (p : Port) (now : Instant) : Option Port :=
  match WorkRound.next p.queue with
  | (.perform operation, rest) =>
      some { p with session := p.session.start operation now, queue := rest }
  | _ => none

/-- What an operation has offered, as long as the link has not answered. -/
def offering? (p : Port) (id : OperationId) : Option Offering :=
  if p.answers.any (·.1 == id) then none
  else
    (p.session.tasks.find? (·.id == id)).bind fun task =>
      match task.activity with
      | .offering o => some o
      | _ => none

/-- An operation goes on; the answer of the transport is the link's. -/
def resume? (p : Port) (id : OperationId) (reply : Reply) (now : Instant) : Option Port :=
  match reply with
  | .transport accepted =>
      if (id, accepted) ∈ p.answers then
        (p.session.step (.resume id reply now)).map fun session =>
          { p with session, answers := p.answers.filter (·.1 != id) }
      else none
  | _ => (p.session.step (.resume id reply now)).map fun session => { p with session }

variable {p p' : Port} {id : OperationId} {o : Offering} {now : Instant}

/-- A worker takes nothing from an empty queue. -/
theorem take?_nil (empty : p.queue = []) (now : Instant) : p.take? now = none := by
  rw [take?, empty]
  rfl

theorem take?_frame {frame : Bytes} (queue : p.queue = [.frame frame]) (now : Instant) :
    p.take? now = some { p with session := p.session.start (.receive frame) now, queue := [] } := by
  rw [take?, queue]
  rfl

/-- Whatever is on offer is offered by an operation under way, and the link has not answered yet. -/
theorem of_offering? (offering : p.offering? id = some o) :
    (∀ w ∈ p.answers, w.1 ≠ id) ∧
      ∃ task ∈ p.session.tasks, task.id = id ∧ task.activity = .offering o := by
  unfold offering? at offering
  split at offering
  · cases offering
  · rename_i unanswered
    obtain ⟨task, found, offers⟩ := Option.bind_eq_some_iff.mp offering
    refine ⟨?_, task, List.mem_of_find?_eq_some found, by simpa using List.find?_some found, ?_⟩
    · intro w mem same
      exact unanswered (List.any_eq_true.mpr ⟨w, mem, beq_iff_eq.mpr same⟩)
    cases activity : task.activity with
    | offering o' =>
        simp only [activity] at offers
        exact congrArg Activity.offering (Option.some.inj offers)
    | _ => simp [activity] at offers

/-- An operation under way has its frame on offer until the link answers. -/
theorem offering?_of_mem (orderly : p.session.Orderly) {task : Task}
    (mem : task ∈ p.session.tasks) (offers : task.activity = .offering o)
    (unanswered : ∀ w ∈ p.answers, w.1 ≠ task.id) : p.offering? task.id = some o := by
  have silent : p.answers.any (·.1 == task.id) = false :=
    List.any_eq_false.mpr fun w mem same => unanswered w mem (beq_iff_eq.mp same)
  simp [offering?, silent, orderly.find?_eq_some mem, offers]

/-- The transport's answer to an operation is the one that the link has given, and it is used up. -/
theorem of_resume?_transport {accepted : Bool}
    (resumed : p.resume? id (.transport accepted) now = some p') :
    (id, accepted) ∈ p.answers ∧
      ∃ s, p.session.step (.resume id (.transport accepted) now) = some s ∧
        p' = { p with session := s, answers := p.answers.filter (·.1 != id) } := by
  simp only [resume?] at resumed
  split at resumed
  · rename_i answered
    obtain ⟨s, stepped, rfl⟩ := Option.map_eq_some_iff.mp resumed
    exact ⟨answered, s, stepped, rfl⟩
  · cases resumed

theorem of_resume?_other {reply : Reply} (other : ∀ accepted, reply ≠ .transport accepted)
    (resumed : p.resume? id reply now = some p') :
    ∃ s, p.session.step (.resume id reply now) = some s ∧ p' = { p with session := s } := by
  cases reply with
  | transport accepted => exact absurd rfl (other accepted)
  | _ =>
      obtain ⟨s, stepped, rfl⟩ := Option.map_eq_some_iff.mp resumed
      exact ⟨s, stepped, rfl⟩

end Port

/-- A link with a session at each end. The listener at an end is the queue of that end. No bound is
set to a queue, and nothing is lost on the link. -/
structure Linked where
  link : JoinedLink Side
  port : Side → Port

inductive LinkedMove where
  | start (side : Side) (operation : Operation) (now : Instant)
  | take (side : Side) (now : Instant)
  | carry (side : Side) (id : OperationId)
  | resume (side : Side) (id : OperationId) (reply : Reply) (now : Instant)

namespace Linked

/-- Two sessions that are put on a link, whose queues are empty. -/
def join (link : JoinedLink Side) (session : Side → Session) : Linked :=
  { link, port := fun side => { session := session side } }

def set (j : Linked) (side : Side) (p : Port) : Linked :=
  { j with port := Function.update j.port side p }

/-- Writes down what the link has answered to an operation's frame. -/
def answer (j : Linked) (side : Side) (id : OperationId) (accepted : Bool) : Linked :=
  j.set side { j.port side with answers := (id, accepted) :: (j.port side).answers }

/-- The link gets a frame: it goes to the queue of whoever listens at the other end, if there is
anyone. -/
def carry (j : Linked) (side : Side) (id : OperationId) (frame : Bytes) : Linked :=
  match j.link.receiver? side with
  | none => j.answer side id false
  | some listener =>
      let p := (j.answer side id true).port listener
      (j.answer side id true).set listener
        { p with queue := p.queue ++ [WorkItem.ofEvent (.frame frame)] }

def step (j : Linked) : LinkedMove → Option Linked
  | .start side operation now =>
      some (j.set side
        { j.port side with session := (j.port side).session.start operation now })
  | .take side now => ((j.port side).take? now).map (j.set side)
  | .carry side id => ((j.port side).offering? id).map fun o => j.carry side id o.frame
  | .resume side id reply now => ((j.port side).resume? id reply now).map (j.set side)

variable {j : Linked} {side : Side} {p : Port}

@[simp] theorem port_set : (j.set side p).port side = p := Function.update_self ..

@[simp] theorem port_set_opposite : (j.set side p).port side.opposite = j.port side.opposite :=
  Function.update_of_ne side.opposite_ne ..

@[simp] theorem port_opposite_set : (j.set side.opposite p).port side = j.port side :=
  Function.update_of_ne side.opposite_ne.symm ..

/-- Where each end listens to the other, the link carries a frame across. -/
theorem carry_eq (up : j.link.up = true) (attached : ∀ side, j.link.listener side = some side)
    (id : OperationId) (frame : Bytes) :
    j.carry side id frame =
      (j.set side { j.port side with answers := (id, true) :: (j.port side).answers }).set
        side.opposite
        { j.port side.opposite with
          queue := (j.port side.opposite).queue ++ [.frame frame] } := by
  have receiver : j.link.receiver? side = some side.opposite := by
    rw [JoinedLink.receiver?, if_pos up, attached]
  simp only [carry, receiver, answer, port_set_opposite, WorkItem.ofEvent]

end Linked

/-! ### What a history tells -/

namespace Entry

/-- The request that a frame brought to an endpoint. An endpoint of the program has been called with
it; one of the exchange itself has answered already. -/
def asked (e : Entry) : List (Registration × Message) :=
  match e.turn, e.progress with
  | .begins (.receive _), .waiting (.serving ⟨r, m, .answerRequest⟩) => [(r, m)]
  | .begins (.receive frame), .waiting (.offering ⟨_, .echo _⟩)
  | .begins (.receive frame), .waiting (.offering ⟨_, .errorAnswer _⟩) => e.before.residents frame
  | _, _ => []

/-- The calls of handlers for requests and for responses in a move. -/
def handled (e : Entry) : List (Registration × Message) :=
  e.asked ++ (e.reached.filterMap Prod.snd).map fun call => (call.registration, call.message)

/-- A frame comes to handlers as a request or as a response. -/
theorem handled_of_received {e : Entry} {frame : Bytes} (turn : e.turn = .begins (.receive frame)) :
    e.handled = e.asked ++ e.delivery := by
  rw [handled, reached, (due_of_receive turn).2, List.map_nil, List.append_nil]
  simp [Function.comp_def]

def outcome (e : Entry) (id : OperationId) : List Outcome :=
  if e.operation = id then
    match e.progress with
    | .finished outcome => [outcome]
    | .waiting _ => []
  else []

/-- Only frames and scans come to handlers. -/
theorem handled_of_routine {e : Entry} (routine : e.turn.routine = true) : e.handled = [] := by
  have unasked : e.asked = [] := by
    unfold asked
    generalize e.turn = turn at routine
    cases turn with
    | begins operation => cases operation <;> first | rfl | cases routine
    | goesOn activity reply => rfl
  rw [handled, unasked, reached_of_silent (not_mayTell_of_routine routine)]
  rfl

end Entry

namespace History

/-- What operations have done that started from number `first` on. Operations that were under way
before are left out, so that a dialogue can begin in any state of the two sessions. -/
def since (first : OperationId) (h : History) : History := h.filter (first ≤ ·.operation)

/-- All calls of handlers, the last one first. -/
def handled (h : History) : List (Registration × Message) := h.flatMap Entry.handled

/-- How the operation `id` ended; nothing while it is under way. -/
def outcomes (id : OperationId) (h : History) : List Outcome := h.flatMap (·.outcome id)

variable {first id : OperationId} {e : Entry} {past : History}

theorem since_cons (later : first ≤ e.operation) :
    since first (e :: past) = e :: past.since first :=
  List.filter_cons_of_pos (decide_eq_true later)

/-- Before a session's own operations nothing has been done by them. -/
theorem since_of_old (old : ∀ e ∈ past, e.operation < first) : past.since first = [] :=
  List.filter_eq_nil_iff.mpr fun e mem => by
    simpa using old e mem

/-- An operation has no outcome before it starts. -/
theorem outcomes_of_old (old : ∀ e ∈ past, e.operation < id) : past.outcomes id = [] :=
  List.flatMap_eq_nil_iff.mpr fun e mem => if_neg (Nat.ne_of_lt (old e mem))

theorem outcomes_cons : outcomes id (e :: past) = e.outcome id ++ past.outcomes id := rfl

theorem handled_cons : handled (e :: past) = e.handled ++ past.handled := rfl

end History

/-! ### Rounds in which nothing is due -/

/-- A scan that finds nothing overdue leaves the ledger as it was. -/
theorem Ledger.takeLapsed_eq_self {l : Ledger} {now : Instant} (calm : (l.takeLapsed now).1 = []) :
    (l.takeLapsed now).2 = l := by
  have none_due : ∀ s ∈ l.slots, s.isDue now = false := by
    have empty : (l.slots.filter (·.isDue now)).toList = [] := List.map_eq_nil_iff.mp calm
    intro s mem
    by_contra due
    have found : s ∈ (l.slots.filter (·.isDue now)).toList := by
      simpa using ⟨mem, Bool.not_eq_false _ ▸ due⟩
    rw [empty] at found
    cases found
  have same : l.slots.map (fun s => if s.isDue now then s.finish else s) = l.slots := by
    conv_rhs => rw [← Array.map_id l.slots]
    exact Array.map_congr_left fun s mem => by simp [none_due s mem]
  show { l with slots := _ } = l
  rw [same]

/-- Such a scan is over at once. -/
theorem Exchange.start_scan_calm {x : Exchange} {limit : Instant}
    (calm : (x.ledger.takeLapsed limit).1 = []) (now : Instant) :
    x.start (.scan limit) now = (x, .finished (.scanned 0)) := by
  have same := Ledger.takeLapsed_eq_self calm
  simp only [start, scan]
  generalize x.ledger.takeLapsed limit = taken at calm same
  obtain ⟨lapsed, ledger⟩ := taken
  subst calm same
  rfl

/-! ### Sessions that talk -/

namespace Session

variable {s s' start : Session} {settings : Settings} {e : Entry}

theorem moved_starting (s : Session) (operation : Operation) (now : Instant) :
    s.Moved (s.start operation now) (s.entry operation now (s.exchange.start operation now)) :=
  ⟨rfl, rfl, rfl, rfl, .starts rfl rfl rfl rfl (s.tasks_record _ _ _ _ _ _)⟩

/-- An operation that goes on was under way, and makes the move that follows the answer. -/
theorem moved_resuming {id : OperationId} {reply : Reply} {now : Instant}
    (resumed : s.step (.resume id reply now) = some s') :
    ∃ task ∈ s.tasks, task.id = id ∧ ∃ segment,
      s.exchange.proceed task.activity reply now = some segment ∧
        s.Moved s' (s.reentry task reply now segment) := by
  obtain ⟨task, found, resumed⟩ := Option.bind_eq_some_iff.mp resumed
  obtain ⟨segment, proceeded, rfl⟩ := Option.map_eq_some_iff.mp resumed
  have mem := List.mem_of_find?_eq_some found
  have same : task.id = id := by simpa using List.find?_some found
  exact ⟨task, mem, same, segment, proceeded, rfl, rfl, rfl, proceeded,
    .resumes mem rfl rfl rfl rfl (s.tasks_record _ _ _ _ _ _)⟩

/-- An operation under way goes on when its answer is of the kind that it waits for. -/
theorem exists_step_resume (orderly : s.Orderly) {task : Task} (mem : task ∈ s.tasks)
    {reply : Reply} {now : Instant}
    (proceeds : (s.exchange.proceed task.activity reply now).isSome = true) :
    ∃ s', s.step (.resume task.id reply now) = some s' := by
  obtain ⟨segment, proceeds⟩ := Option.isSome_iff_exists.mp proceeds
  simp [step, orderly.find?_eq_some mem, resume, proceeds]

/-- The operation `id` is under way, or it has ended like this. -/
def EndsLike (s : Session) (id : OperationId) (outcome : Outcome) : Prop :=
  (∃ task ∈ s.tasks, task.id = id) ∧ s.history.outcomes id = [] ∨
    (∀ task ∈ s.tasks, task.id ≠ id) ∧ s.history.outcomes id = [outcome]

/-- An operation that has started and waits may still end in any way. -/
theorem endsLike_starting (orderly : s.Orderly) (moved : s.Moved s' e)
    (fresh : e.operation = s.started) {activity : Activity} (waits : e.progress = .waiting activity)
    (outcome : Outcome) : s'.EndsLike s.started outcome := by
  have mine : (⟨e.operation, e.found, activity⟩ : Task) ∈ e.tasks := by
    simp [Entry.tasks, waits]
  refine .inl ⟨⟨_, moved.mem_tasks mine, fresh⟩, ?_⟩
  rw [moved.history, History.outcomes_cons, History.outcomes_of_old orderly.entries]
  simp [Entry.outcome, waits]

/-- The moves of others do not change how an operation ends. -/
theorem EndsLike.other {id : OperationId} {outcome : Outcome} (ends : s.EndsLike id outcome)
    (orderly : s.Orderly) (moved : s.Moved s' e) (other : e.operation ≠ id) :
    s'.EndsLike id outcome := by
  have same : s'.history.outcomes id = s.history.outcomes id := by
    rw [moved.history, History.outcomes_cons, Entry.outcome, if_neg other, List.nil_append]
  rcases ends with ⟨⟨task, mem, rfl⟩, none⟩ | ⟨gone, one⟩
  · exact .inl ⟨⟨task, moved.mem_tasks_of_other mem other.symm, rfl⟩, same.trans none⟩
  · refine .inr ⟨fun task mem => ?_, same.trans one⟩
    rcases moved.task_cases orderly mem with mine | ⟨under, -⟩
    · rw [(moved.task_id mine).1]
      exact other
    · exact gone task under

theorem EndsLike.outcomes_of_under {id : OperationId} {outcome : Outcome}
    (ends : s.EndsLike id outcome) (under : ∃ task ∈ s.tasks, task.id = id) :
    s.history.outcomes id = [] := by
  obtain ⟨task, mem, same⟩ := under
  rcases ends with ⟨-, none⟩ | ⟨gone, -⟩
  · exact none
  · exact absurd same (gone task mem)

/-- When an operation ends as it should, this is the one outcome on record. -/
theorem EndsLike.finished {id : OperationId} {outcome : Outcome} (ends : s.EndsLike id outcome)
    (moved : s.Moved s' e) (own : e.operation = id) (under : ∃ task ∈ s.tasks, task.id = id)
    (progress : e.progress = .finished outcome) : s'.history.outcomes id = [outcome] := by
  rw [moved.history, History.outcomes_cons, ends.outcomes_of_under under, List.append_nil,
    Entry.outcome, if_pos own, progress]

/-- A move of the operation itself leaves it under way or ends it as it should. -/
theorem EndsLike.own {id : OperationId} {outcome : Outcome} (ends : s.EndsLike id outcome)
    (orderly : s.Orderly) (moved : s.Moved s' e) (own : e.operation = id)
    (under : ∃ task ∈ s.tasks, task.id = id)
    (right : ∀ result, e.progress = .finished result → result = outcome) :
    s'.EndsLike id outcome := by
  cases progress : e.progress with
  | waiting activity =>
      have mine : (⟨e.operation, e.found, activity⟩ : Task) ∈ e.tasks := by
        simp [Entry.tasks, progress]
      refine .inl ⟨⟨_, moved.mem_tasks mine, own⟩, ?_⟩
      rw [moved.history, History.outcomes_cons, ends.outcomes_of_under under, List.append_nil,
        Entry.outcome, if_pos own, progress]
  | finished result =>
      obtain rfl := right result progress
      refine .inr ⟨fun task mem => ?_, ends.finished moved own under progress⟩
      rcases moved.task_cases orderly mem with mine | ⟨-, other⟩
      · simp [Entry.tasks, progress] at mine
      · rwa [own] at other

/-- A session since it was as `start`: what its own operations that are under way satisfy, and the
calls of handlers so far. Each side of a dialogue is followed with one of these. -/
structure Talks (settings : Settings) (start : Session) (Under : Task → Prop)
    (heard : List (Registration × Message)) (s : Session) : Prop where
  reached : Reachable settings s
  /-- Nobody came or went. -/
  directory : s.exchange.directory = start.exchange.directory
  started : start.started ≤ s.started
  /-- Whatever has begun since belongs to the dialogue. -/
  tasks : ∀ task ∈ s.tasks, start.started ≤ task.id → Under task
  /-- These are the calls of handlers since. -/
  handled : (s.history.since start.started).handled = heard

variable {Under Under' : Task → Prop} {heard : List (Registration × Message)}

/-- At first none of a session's own operations is under way, and no handler has been called. -/
theorem talks_start (reached : Reachable settings start) : Talks settings start Under [] start where
  reached := reached
  directory := rfl
  started := Nat.le_refl _
  tasks := fun task mem own => absurd (reached.orderly.old task mem) (Nat.not_lt.mpr own)
  handled := by
    rw [History.since_of_old reached.orderly.entries]
    rfl

/-- One more move adds the handlers that it calls; what it leaves under way has to be looked at, the
rest stays as it was. This is the step of the induction over the moves at one end. -/
theorem Talks.advance (talks : Talks settings start Under heard s)
    (reached : Reachable settings s') (moved : s.Moved s' e) (own : start.started ≤ e.operation)
    (directory : e.after.directory = e.before.directory)
    (left : ∀ task ∈ e.tasks, Under' task)
    (others : ∀ task, task.id ≠ e.operation → Under task → Under' task) :
    Talks settings start Under' (e.handled ++ heard) s' where
  reached := reached
  directory := by rw [moved.after, directory, moved.before, talks.directory]
  started := Nat.le_trans talks.started moved.started_le
  tasks := by
    intro task mem since
    rcases moved.task_cases talks.reached.orderly mem with mine | ⟨under, other⟩
    · exact left task mine
    · exact others task other (talks.tasks task under since)
  handled := by
    rw [moved.history, History.since_cons own, History.handled_cons, talks.handled]

/-- A scan for which nothing is due. -/
theorem Talks.scan (talks : Talks settings start Under heard s) {limit : Instant}
    (calm : (s.exchange.ledger.takeLapsed limit).1 = []) (now : Instant) :
    Talks settings start Under heard (s.start (.scan limit) now) ∧
      (s.start (.scan limit) now).exchange = s.exchange ∧
      (s.start (.scan limit) now).tasks = s.tasks ∧
      ∃ e, s.Moved (s.start (.scan limit) now) e ∧ e.operation = s.started := by
  have moved := s.moved_starting (.scan limit) now
  have tasks := s.tasks_record s.started none (.begins (.scan limit)) now s.tasks
    (s.exchange.start (.scan limit) now)
  rw [Exchange.start_scan_calm calm] at moved tasks
  have quiet : (s.entry (.scan limit) now (s.exchange, .finished (.scanned 0))).handled = [] := by
    have visits : (s.entry (.scan limit) now (s.exchange, .finished (.scanned 0))).visits = [] :=
      Entry.visits_of_none calm
    simp only [Entry.handled, Entry.reached, visits]
    rfl
  have talks' : Talks settings start Under _ _ := talks.advance
    (talks.reached.step (rfl : s.step (.start (.scan limit) now) = _)) moved talks.started rfl
    (fun task mem => (List.not_mem_nil mem).elim) fun _ _ under => under
  rw [quiet, List.nil_append] at talks'
  refine ⟨talks', moved.after, ?_, _, moved, rfl⟩
  simp only [Session.start, Exchange.start_scan_calm calm]
  exact tasks

end Session

end HubRelay
