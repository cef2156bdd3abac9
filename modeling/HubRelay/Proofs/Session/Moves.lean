import HubRelay.Proofs.Session.Deed

/-!
What one move does to a session, and what it does to the requests sent.

A move adds one entry to the history, and the entry is a deed. The second half reads off the deed
which requests the entry begins, which slots it forgets and how it advances the numbers of a slot.
-/

namespace HubRelay

/-- What is left under way of the operation that made a move. -/
def Entry.tasks (e : Entry) : List Task :=
  match e.progress with
  | .finished _ => []
  | .waiting activity => [⟨e.operation, e.found, activity⟩]

/-- Whose move it was. -/
inductive Entry.Mover (e : Entry) (s s' : Session) : Prop where
  | starts {operation : Operation} :
      e.turn = .begins operation → e.operation = s.started →
      e.found = operation.handle?.bind e.before.directory.find? →
      s'.started = s.started + 1 → s'.tasks = e.tasks ++ s.tasks → Mover e s s'
  | resumes {task : Task} {reply : Reply} :
      task ∈ s.tasks → e.turn = .goesOn task.activity reply → e.operation = task.id →
      e.found = task.found → s'.started = s.started →
      s'.tasks = e.tasks ++ s.tasks.filter (·.id != task.id) → Mover e s s'

/-- The session `s` moves to `s'` and leaves the entry `e`. The three parts of a session are
described separately: the exchange by the entry, the history, which has one entry more, and the
operations under way, of which only the mover's changes. -/
structure Session.Moved (s s' : Session) (e : Entry) : Prop where
  before : e.before = s.exchange
  after : s'.exchange = e.after
  history : s'.history = e :: s.history
  turned : e.before.turn e.turn e.now = some (e.after, e.progress)
  mover : e.Mover s s'

theorem Session.Moved.deed {s s' : Session} {e : Entry} (moved : s.Moved s' e) :
    Deed e.before e.now e.turn (e.after, e.progress) :=
  deed_of_turn moved.turned

/-- An operation that has not finished is under way beside the others. -/
theorem Session.tasks_record (s : Session) (id : OperationId) (found : Option Registration)
    (turn : Turn) (now : Instant) (others : List Task) (segment : Segment) :
    (s.record id found turn now others segment).tasks =
      (⟨id, found, turn, now, s.exchange, segment.1, segment.2⟩ : Entry).tasks ++ others := by
  obtain ⟨x, progress⟩ := segment
  cases progress with
  | finished outcome => rfl
  | waiting activity => rfl

theorem Session.moved_start (s : Session) (operation : Operation) (now : Instant) :
    ∃ e, s.Moved (s.start operation now) e := by
  exact ⟨_, rfl, rfl, rfl, rfl, .starts rfl rfl rfl rfl (s.tasks_record _ _ _ _ _ _)⟩

theorem Session.moved_resume {s s' : Session} {task : Task} {reply : Reply} {now : Instant}
    (mem : task ∈ s.tasks) (resumed : s.resume task reply now = some s') :
    ∃ e, s.Moved s' e := by
  obtain ⟨segment, proceeded, rfl⟩ := Option.map_eq_some_iff.mp resumed
  exact ⟨_, rfl, rfl, rfl, proceeded,
    .resumes mem rfl rfl rfl rfl (s.tasks_record _ _ _ _ _ _)⟩

theorem Session.moved_of_step {s s' : Session} {move : Move} (stepped : s.step move = some s') :
    ∃ e, s.Moved s' e := by
  cases move with
  | start operation now =>
      obtain rfl := Option.some.inj stepped
      exact s.moved_start operation now
  | resume id reply now =>
      obtain ⟨task, found, resumed⟩ := Option.bind_eq_some_iff.mp stepped
      exact Session.moved_resume (List.mem_of_find?_eq_some found) resumed

/-- What holds of a fresh session and is kept by every move holds of every reachable session. This
is the induction on runs, made once. -/
theorem Session.Reachable.holds {settings : Settings} {Inv : Session → Prop} {s : Session}
    (reached : Reachable settings s) (fresh : Inv (Session.ofSettings settings))
    (kept : ∀ {s s' : Session} {e : Entry}, Reachable settings s → s.Moved s' e → Inv s → Inv s') :
    Inv s := by
  induction reached with
  | fresh => exact fresh
  | step before stepped ih =>
      obtain ⟨e, moved⟩ := Session.moved_of_step stepped
      exact kept before moved ih

/-- What holds after one move of a run and is kept by every later one holds at its end. It is used
for properties that begin with a move, such as the one in which a caller's request begins. -/
theorem Session.Reachable.since {settings : Settings} {P : History → Session → Prop} {s : Session}
    (reached : Reachable settings s) {recent past : History} {e : Entry}
    (split : s.history = recent ++ e :: past)
    (first : ∀ {s s' : Session}, Reachable settings s → Reachable settings s' → s.Moved s' e →
      s.history = past → P [] s')
    (next : ∀ {recent : History} {s s' : Session} {n : Entry}, Reachable settings s →
      Reachable settings s' → s.history = recent ++ e :: past → s.Moved s' n → P recent s →
      P (n :: recent) s') :
    P recent s := by
  induction reached generalizing recent with
  | fresh => cases recent <;> cases split
  | step before stepped ih =>
      obtain ⟨n, moved⟩ := Session.moved_of_step stepped
      rw [moved.history] at split
      cases recent with
      | nil =>
          obtain ⟨rfl, rfl⟩ := List.cons.inj split
          exact first before (before.step stepped) moved rfl
      | cons latest recent =>
          obtain ⟨rfl, rest⟩ := List.cons.inj split
          exact next before (before.step stepped) rest moved (ih rest)

/-! ### The operations under way -/

/-- Operations under way have different numbers, all of them given out. -/
structure Session.Orderly (s : Session) : Prop where
  old : ∀ task ∈ s.tasks, task.id < s.started
  distinct : (s.tasks.map Task.id).Nodup
  entries : ∀ e ∈ s.history, e.operation < s.started

theorem Session.Orderly.find?_eq_some {s : Session} (orderly : s.Orderly) {task : Task}
    (mem : task ∈ s.tasks) : s.tasks.find? (·.id == task.id) = some task := by
  cases found : s.tasks.find? (·.id == task.id) with
  | none =>
      have other := List.find?_eq_none.mp found task mem
      exact absurd (beq_self_eq_true task.id) other
  | some other =>
      have same : other.id = task.id := by simpa using List.find?_some found
      have under := List.mem_of_find?_eq_some found
      rw [List.inj_on_of_nodup_map orderly.distinct under mem same]

namespace Session.Moved

variable {s s' : Session} {e : Entry}

/-- Where an operation starts its endpoint is looked up. -/
theorem found_of_begins (moved : s.Moved s' e) {operation : Operation}
    (turn : e.turn = .begins operation) :
    e.found = operation.handle?.bind e.before.directory.find? := by
  cases moved.mover with
  | starts turn' _ looked =>
      rw [turn] at turn'
      rw [looked, Turn.begins.inj turn']
  | resumes _ turn' =>
      rw [turn] at turn'
      cases turn'

theorem task_id (_ : s.Moved s' e) {task : Task} (mem : task ∈ e.tasks) :
    task.id = e.operation ∧ task.found = e.found ∧ e.progress = .waiting task.activity := by
  unfold Entry.tasks at mem
  cases progress : e.progress with
  | finished => simp [progress] at mem
  | waiting activity =>
      simp only [progress, List.mem_singleton] at mem
      subst mem
      exact ⟨rfl, rfl, rfl⟩

theorem mem_tasks (moved : s.Moved s' e) {task : Task} (mine : task ∈ e.tasks) :
    task ∈ s'.tasks := by
  cases moved.mover with
  | starts _ _ _ _ tasks => exact tasks ▸ List.mem_append_left _ mine
  | resumes _ _ _ _ _ tasks => exact tasks ▸ List.mem_append_left _ mine

theorem started_le (moved : s.Moved s' e) : s.started ≤ s'.started := by
  cases moved.mover with
  | starts _ _ _ started => exact started ▸ Nat.le_succ _
  | resumes _ _ _ _ started => exact started ▸ Nat.le_refl _

/-- Whatever is under way after a move was left by it, or was under way before and is another
operation. -/
theorem task_cases (moved : s.Moved s' e) (orderly : s.Orderly) {task : Task}
    (mem : task ∈ s'.tasks) : task ∈ e.tasks ∨ task ∈ s.tasks ∧ task.id ≠ e.operation := by
  cases moved.mover with
  | starts _ operation _ _ tasks =>
      rw [tasks, List.mem_append] at mem
      refine mem.imp_right fun mem => ⟨mem, ?_⟩
      rw [operation]
      exact Nat.ne_of_lt (orderly.old task mem)
  | resumes _ _ operation _ _ tasks =>
      rw [tasks, List.mem_append, List.mem_filter] at mem
      exact mem.imp_right fun mem => ⟨mem.1, by rw [operation]; exact bne_iff_ne.mp mem.2⟩

theorem mem_tasks_of_other (moved : s.Moved s' e) {task : Task} (mem : task ∈ s.tasks)
    (other : task.id ≠ e.operation) : task ∈ s'.tasks := by
  cases moved.mover with
  | starts _ _ _ _ tasks =>
      rw [tasks]
      exact List.mem_append_right _ mem
  | resumes _ _ operation _ _ tasks =>
      rw [tasks]
      refine List.mem_append_right _ (List.mem_filter.mpr ⟨mem, ?_⟩)
      rw [← operation]
      exact bne_iff_ne.mpr other

theorem orderly (moved : s.Moved s' e) (orderly : s.Orderly) : s'.Orderly := by
  have mine : e.tasks.map Task.id = [] ∨ e.tasks.map Task.id = [e.operation] := by
    unfold Entry.tasks
    cases e.progress with
    | finished => exact .inl rfl
    | waiting => exact .inr rfl
  have known : e.operation < s'.started ∧ s.started ≤ s'.started := by
    cases moved.mover with
    | starts _ operation _ started _ =>
        rw [operation, started]
        exact ⟨Nat.lt_succ_self _, Nat.le_succ _⟩
    | resumes mem _ operation _ started _ =>
        rw [operation, started]
        exact ⟨orderly.old _ mem, Nat.le_refl _⟩
  have others : ((s'.tasks.map Task.id).Nodup) := by
    cases moved.mover with
    | starts _ operation _ _ tasks =>
        rw [tasks, List.map_append]
        have fresh : e.operation ∉ s.tasks.map Task.id := by
          rintro mem
          obtain ⟨task, mem, same⟩ := List.mem_map.mp mem
          exact Nat.ne_of_lt (orderly.old task mem) (same.trans operation)
        rcases mine with none | one
        · simpa [none] using orderly.distinct
        · rw [one]
          exact List.nodup_cons.mpr ⟨fresh, orderly.distinct⟩
    | @resumes task _ _ _ operation _ _ tasks =>
        have rest : ((s.tasks.filter (·.id != task.id)).map Task.id).Nodup :=
          orderly.distinct.sublist (List.filter_sublist.map _)
        rw [tasks, List.map_append]
        rcases mine with none | one
        · simpa [none] using rest
        · rw [one]
          refine List.nodup_cons.mpr ⟨?_, rest⟩
          simp [operation]
  refine ⟨fun task mem => ?_, others, fun entry mem => ?_⟩
  · rcases moved.task_cases orderly mem with mem | ⟨mem, -⟩
    · rw [(moved.task_id mem).1]
      exact known.1
    · exact Nat.lt_of_lt_of_le (orderly.old task mem) known.2
  · rw [moved.history] at mem
    rcases List.mem_cons.mp mem with rfl | mem
    · exact known.1
    · exact Nat.lt_of_lt_of_le (orderly.entries entry mem) known.2

end Session.Moved

theorem Session.Reachable.orderly {settings : Settings} {s : Session}
    (reached : Session.Reachable settings s) : s.Orderly :=
  reached.holds
    { old := fun task mem => by cases mem
      distinct := List.nodup_nil
      entries := fun e mem => by cases mem }
    fun _ moved orderly => moved.orderly orderly

/-! ### Going on from a session -/

namespace Session

variable {s : Session} {settings : Settings}

/-- The entry of an operation that starts with this segment. -/
def entry (s : Session) (operation : Operation) (now : Instant) (segment : Segment) : Entry :=
  ⟨s.started, operation.handle?.bind s.exchange.directory.find?, .begins operation, now,
    s.exchange, segment.1, segment.2⟩

/-- The entry of an operation that goes on with this segment. -/
def reentry (s : Session) (task : Task) (reply : Reply) (now : Instant) (segment : Segment) :
    Entry :=
  ⟨task.id, task.found, .goesOn task.activity reply, now, s.exchange, segment.1, segment.2⟩

theorem Reachable.starts (reached : Reachable settings s) (operation : Operation) (now : Instant)
    {segment : Segment} (starts : s.exchange.start operation now = segment) :
    ∃ s', Reachable settings s' ∧ s'.exchange = segment.1 ∧
      s'.history = s.entry operation now segment :: s.history ∧
      s'.tasks = (s.entry operation now segment).tasks ++ s.tasks ∧
      s'.started = s.started + 1 := by
  subst starts
  have stepped : s.step (.start operation now) = some (s.start operation now) := rfl
  exact ⟨_, reached.step stepped, rfl, rfl, s.tasks_record _ _ _ _ _ _, rfl⟩

theorem Reachable.resumes (reached : Reachable settings s) {task : Task} (mem : task ∈ s.tasks)
    (reply : Reply) (now : Instant) {segment : Segment}
    (proceeds : s.exchange.proceed task.activity reply now = some segment) :
    ∃ s', Reachable settings s' ∧ s'.exchange = segment.1 ∧
      s'.history = s.reentry task reply now segment :: s.history ∧
      s'.tasks =
        (s.reentry task reply now segment).tasks ++ s.tasks.filter (·.id != task.id) ∧
      s'.started = s.started := by
  have alone := reached.orderly.find?_eq_some mem
  have stepped : s.step (.resume task.id reply now) =
      some (s.record task.id task.found (.goesOn task.activity reply) now
        (s.tasks.filter (·.id != task.id)) segment) := by
    simp only [Session.step, alone, Option.bind_some, Session.resume, proceeds, Option.map_some]
  exact ⟨_, reached.step stepped, rfl, rfl, s.tasks_record _ _ _ _ _ _, rfl⟩

/-- An operation starts, and what it waits for comes at once. -/
theorem Reachable.startsAndResumes (reached : Reachable settings s) (operation : Operation)
    (now : Instant) (reply : Reply) (later : Instant) {x : Exchange} {activity : Activity}
    {segment : Segment} (starts : s.exchange.start operation now = (x, .waiting activity))
    (proceeds : x.proceed activity reply later = some segment) :
    ∃ (s₁ s₂ : Session) (task : Task), Reachable settings s₂ ∧ task.id = s.started ∧
      task.activity = activity ∧
      s₁.exchange = x ∧ s₂.exchange = segment.1 ∧
      s₂.history = s₁.reentry task reply later segment ::
        s.entry operation now (x, .waiting activity) :: s.history ∧
      s₂.tasks = (s₁.reentry task reply later segment).tasks ++ s.tasks ∧
      s₂.started = s.started + 1 := by
  obtain ⟨s₁, reached₁, exchange, history, tasks, started⟩ :=
    reached.starts operation now starts
  let task : Task :=
    ⟨s.started, operation.handle?.bind s.exchange.directory.find?, activity⟩
  have tasks : s₁.tasks = task :: s.tasks := tasks
  have mem : task ∈ s₁.tasks := tasks ▸ List.mem_cons_self
  have proceeds : s₁.exchange.proceed task.activity reply later = some segment := by
    rw [exchange]
    exact proceeds
  obtain ⟨s₂, reached₂, exchange₂, history₂, tasks₂, started₂⟩ :=
    reached₁.resumes mem reply later proceeds
  have others : s₁.tasks.filter (·.id != task.id) = s.tasks := by
    rw [tasks, List.filter_cons_of_neg (by simp)]
    refine List.filter_eq_self.mpr ?_
    intro task mem
    exact bne_iff_ne.mpr (Nat.ne_of_lt (reached.orderly.old task mem))
  refine ⟨s₁, s₂, task, reached₂, rfl, rfl, exchange, exchange₂, ?_, ?_, ?_⟩
  · rw [history₂, history]
  · rw [tasks₂, others]
  · rw [started₂, started]

end Session

end HubRelay
