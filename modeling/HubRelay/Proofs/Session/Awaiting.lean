import HubRelay.Proofs.Session.Blocked

/-!
What holds of a caller as long as its call lasts.

It stands in the table, or it has the response that was handed over, or it was released because its
slot was forgotten (`Session.Awaiting`). Only an operation that was under way before the request
began can bring this out of order: when it hands over a response under the number of the request, or
takes a request under that number back. `History.Undisturbed` says that none does.
-/

namespace HubRelay

/-! ### What may come between a caller and its response -/

/-- A move that hands over a response under a key, or takes a request under it back. Keys are all
that such an operation goes by, so it may concern another request than the one that it began with.
-/
inductive Entry.Meddles (n : Entry) (key : RequestKey) : Prop where
  | posts {m : Message} : m ∈ n.posts → m.header.key = key → Meddles n key
  | refuses {o : Offering} {caller : Option (CallId × Span)} :
      n.turn = .goesOn (.offering o) (.transport false) → o.purpose = .request caller →
      o.message.header.key = key → n.before.ledger.awaits key = true → Meddles n key

/-- As long as the slots of the handle were not forgotten, no operation that had started before this
one meddled with the request. Those that start later meet the request itself, and need no such
condition. -/
def History.Undisturbed (id : OperationId) (key : RequestKey) (h : History) : Prop :=
  h.Everywhere fun n since =>
    since.forgets key.handle = false → n.operation < id → ¬ n.Meddles key

/-! ### The invariant -/

/-- A caller waits for the response to its request, until an instant reckoned from one of its own
moves; for the second time only if its request has ended. -/
structure ReplyWait.Serves (wait : ReplyWait) (e : Entry) (key : RequestKey) (span : Span)
    (moves h : History) : Prop where
  caller : wait.call = e.before.awaited.calls
  request : wait.key = key
  patience : wait.span = span
  deadline : ∃ n ∈ moves, n.operation = e.operation ∧ wait.deadline = n.now.after? span
  second : wait.second = true → ¬ h.Unended e.operation

/-- What a caller is about while its call lasts: its request was offered to the transport, or it
waits. -/
inductive Activity.Awaits (e : Entry) (key : RequestKey) (span : Span) (recent h : History) :
    Activity → Prop where
  | offering {message : Message} : message.header.key = key →
      Awaits e key span recent h
        (.offering ⟨message, .request (some (e.before.awaited.calls, span))⟩)
  | reply {wait : ReplyWait} : wait.Serves e key span recent h →
      Awaits e key span recent h (.blocked (.reply wait))

/-- Where a caller stands that has not looked yet. -/
inductive Session.Waits (s : Session) (recent : History) (key : RequestKey) (call : CallId) :
    Prop where
  | stands : recent.forgets key.handle = false → recent.handed key = [] →
      s.exchange.awaited.Stands key call → Waits s recent key call
  | delivered {m : Message} : m ∈ recent.handed key →
      s.exchange.awaited.Got call (.delivered m) → Waits s recent key call
  | released : recent.forgets key.handle = true → recent.handed key = [] →
      s.exchange.awaited.Got call .released → Waits s recent key call

/-- A caller whose request has begun in the move `e`, after the moves `recent`. It is the invariant
of a call: while the call lasts, the task of the caller is what it should be and the caller stands
somewhere in `Session.Waits`. -/
structure Session.Awaiting (s : Session) (recent : History) (e : Entry) (key : RequestKey)
    (span : Span) (r : Registration) : Prop where
  reports : ∀ m ∈ recent.handed key, s.Reports e key r m
  activity : ∀ task ∈ s.tasks, task.id = e.operation →
    task.activity.Awaits e key span recent s.history
  waits : ∀ task ∈ s.tasks, task.id = e.operation → s.Waits recent key e.before.awaited.calls

/-! ### Moves of the caller -/

section Own

variable {s s' : Session} {recent past h : History} {e n : Entry} {key : RequestKey} {span : Span}
  {r : Registration} {call : CallId} {wait : ReplyWait}

theorem Turn.AwaitsReply.posts (awaits : n.turn.AwaitsReply n.now wait) : n.posts = [] := by
  unfold Entry.posts
  generalize n.turn = turn at awaits
  generalize n.now = now at awaits
  cases awaits <;> rfl

theorem History.handed_of_posts (none : n.posts = []) : handed key (n :: h) = handed key h := by
  rw [handed, none]
  split <;> rfl

theorem History.handed_of_calm (calm : h.forgets key.handle = false) (none : h.handed key = []) :
    handed key (n :: h) = n.posts.filter (·.header.key == key) := by
  rw [handed, calm, none]
  exact List.append_nil _

theorem ReplyWait.Serves.mono {moves moves' h' : History} (serves : wait.Serves e key span moves h)
    (more : moves ⊆ moves') (ended : h'.Unended e.operation → h.Unended e.operation) :
    wait.Serves e key span moves' h' where
  caller := serves.caller
  request := serves.request
  patience := serves.patience
  deadline := by
    obtain ⟨m, mem, own, same⟩ := serves.deadline
    exact ⟨m, more mem, own, same⟩
  second := fun second unended => serves.second second (ended unended)

theorem Activity.Awaits.caller {activity : Activity}
    (awaits : activity.Awaits e key span recent h) :
    activity.caller? = some e.before.awaited.calls := by
  cases awaits with
  | offering => rfl
  | reply serves => exact congrArg some serves.caller

/-- Whenever a caller goes on while its call lasts, it looks for its response. -/
theorem Activity.Awaits.turn {activity : Activity} {reply : Reply}
    (awaits : activity.Awaits e key span recent h) (goesOn : n.turn = .goesOn activity reply)
    (turned : n.before.turn n.turn n.now = some (n.after, n.progress))
    (own : n.operation = e.operation) :
    ∃ wait, n.turn.AwaitsReply n.now wait ∧ wait.Serves e key span (n :: recent) h := by
  rw [goesOn] at turned ⊢
  cases awaits with
  | offering same =>
      cases reply with
      | transport accepted =>
          exact ⟨_, .offered rfl,
            { caller := rfl
              request := same
              patience := rfl
              deadline := ⟨n, List.mem_cons_self, own, rfl⟩
              second := nofun }⟩
      | _ => cases turned
  | reply serves =>
      cases reply with
      | woken => exact ⟨_, .waiting, serves.mono (List.subset_cons_self n recent) id⟩
      | _ => cases turned

namespace Session

theorem unended_of_later (moved : s.Moved s' n) {id : OperationId}
    (unended : s'.history.Unended id) : s.history.Unended id :=
  fun x mem => unended x ((Accounted.mem_ended_step moved).mpr (.inr mem))

/-- A caller that goes on waiting changes nothing. -/
theorem Waits.of_own (waits : s.Waits recent key call) (awaited : s'.exchange = s.exchange)
    (none : n.posts = []) (steady : n.restarts key.handle = false) :
    s'.Waits (n :: recent) key call := by
  have handed : History.handed key (n :: recent) = recent.handed key :=
    History.handed_of_posts none
  have forgets : History.forgets key.handle (n :: recent) = recent.forgets key.handle := by
    rw [History.forgets_cons, steady, Bool.false_or]
  cases waits with
  | stands calm nothing stands =>
      refine .stands (forgets.trans calm) (handed.trans nothing) ?_
      rw [awaited]
      exact stands
  | delivered mem got =>
      refine .delivered (handed ▸ mem) ?_
      rw [awaited]
      exact got
  | released gone nothing got =>
      refine .released (forgets.trans gone) (handed.trans nothing) ?_
      rw [awaited]
      exact got

end Session

end Own

/-! ### One move -/

namespace Session

variable {settings : Settings} {s s' : Session} {recent past : History} {e n : Entry}
  {key : RequestKey} {span : Span} {r : Registration} {call : CallId}

theorem Moved.steady_of_begun (moved : s.Moved s' n) (wf : s.exchange.ledger.WellFormed)
    (mem : key ∈ n.begun) (handle : Handle) : n.restarts handle = false := by
  rcases (moved.sound wf).begun_cases with none | ⟨role, order, places, steady, -⟩
  · rw [none] at mem
    cases mem
  · exact steady handle

/-- A caller that still stands in the table was not released by the move. -/
theorem Moved.steady_of_waiting (moved : s.Moved s' n) (accounted : s.Accounted)
    (old : call < s.exchange.awaited.calls) (stands : (key, call) ∈ s'.exchange.awaited.waiting) :
    n.restarts key.handle = false := by
  rw [moved.after] at stands
  rcases (moved.attends accounted).stays _ stands with ⟨-, steady⟩ | ⟨-, number, -⟩
  · exact steady
  · rw [moved.before] at number
    exact absurd number (Nat.ne_of_lt old)

/-- Nothing is handed over under a key under which a caller still stands in the table. -/
theorem Moved.unposted_of_waiting (moved : s.Moved s' n)
    (stands : (key, call) ∈ s'.exchange.awaited.waiting) :
    n.posts.filter (·.header.key == key) = [] := by
  apply List.filter_eq_nil_iff.mpr
  intro m mem same
  rw [moved.after, Entry.awaited_of_posts moved.turned mem, ← beq_iff_eq.mp same] at stands
  exact Awaited.not_waiting_of_postAll mem call stands

namespace Since

/-- Whoever goes on after its request has begun was under way. -/
theorem task_of_own (since : s.Since settings recent past e key span r) (moved : s.Moved s' n)
    (own : n.operation = e.operation) :
    ∃ task ∈ s.tasks, task.id = e.operation ∧ ∃ reply, n.turn = .goesOn task.activity reply := by
  cases moved.mover with
  | starts _ started =>
      have mem : e ∈ s.history := since.split ▸ List.mem_append_right _ List.mem_cons_self
      have old := since.reached.orderly.entries e mem
      rw [← own, started] at old
      exact absurd old (Nat.lt_irrefl _)
  | @resumes task reply mem goesOn same =>
      exact ⟨task, mem, same.symm.trans own, reply, goesOn⟩

/-- A request under the key of the caller's own was begun by an older operation. -/
theorem own_of_begun (since : s.Since settings recent past e key span r)
    (calm : recent.forgets key.handle = false) {id : OperationId} (younger : e.operation ≤ id)
    (begun : (id, key) ∈ s.history.begun) : id = e.operation := by
  rw [since.split, History.begun_append, History.begun, since.asks.begun] at begun
  rcases List.mem_append.mp begun with twin | begun
  · exact absurd twin (since.not_begun calm id)
  · rcases List.mem_cons.mp begun with same | begun
    · exact (Prod.mk.inj same).1
    · obtain ⟨m, mem, rfl⟩ := History.exists_entry_of_begun begun
      exact absurd (since.older m mem) (Nat.not_lt.mpr younger)

theorem awaiting_of_own (since : s.Since settings recent past e key span r)
    (moved : s.Moved s' n) (own : n.operation = e.operation)
    (awaiting : s.Awaiting recent e key span r) : s'.Awaiting (n :: recent) e key span r := by
  obtain ⟨task, under, id, reply, goesOn⟩ := since.task_of_own moved own
  obtain ⟨wait, awaits, serves⟩ :=
    (awaiting.activity task under id).turn goesOn moved.turned own
  have none := awaits.posts
  have steady := Entry.restarts_of_routine awaits.routine key.handle
  have left : ∀ task' ∈ s'.tasks, task'.id = e.operation → s'.exchange = s.exchange ∧
      task'.activity.Awaits e key span (n :: recent) s'.history := by
    intro task' mem same
    rcases moved.task_cases since.reached.orderly mem with mine | ⟨-, apart⟩
    · have replied := replied_of_turn awaits moved.turned
      rw [(moved.task_id mine).2.2] at replied
      rw [moved.after, ← moved.before]
      generalize n.turn = turn at replied
      generalize n.after = after at replied
      generalize task'.activity = activity at replied
      have later : s'.history.Unended e.operation → s.history.Unended e.operation :=
        unended_of_later moved
      cases replied with
      | waits => exact ⟨rfl, .reply (serves.mono (List.Subset.refl _) later)⟩
      | again nothing first come idle =>
          refine ⟨rfl, .reply ?_⟩
          exact
            { caller := serves.caller
              request := serves.request
              patience := serves.patience
              deadline := ⟨n, List.mem_cons_self, own, congrArg n.now.after? serves.patience⟩
              second := by
                intro _ unended
                have pending := (since.of_unended (later unended)).1
                rw [moved.before, serves.request, pending] at idle
                cases idle }
    · exact absurd same (own ▸ apart)
  constructor
  · intro m mem
    rw [History.handed_of_posts none] at mem
    exact (awaiting.reports m mem).step moved
  · intro task' mem same
    exact (left task' mem same).2
  · intro task' mem same
    exact (awaiting.waits task under id).of_own (left task' mem same).1 none steady

/-- When the transport refuses a request under the key that is not the caller's own, an older
operation had offered it. -/
theorem older_of_refused (since : s.Since settings recent past e key span r)
    (moved : s.Moved s' n) (calm : recent.forgets key.handle = false)
    (other : n.operation ≠ e.operation) {o : Offering} {caller : Option (CallId × Span)}
    (turn : n.turn = .goesOn (.offering o) (.transport false))
    (purpose : o.purpose = .request caller) (same : o.message.header.key = key) :
    n.operation < e.operation := by
  obtain ⟨task, under, id, -, activity⟩ := moved.former turn
  have request : task.activity.request? = some key := by
    obtain ⟨message, purpose'⟩ := o
    obtain rfl : purpose' = .request caller := purpose
    rw [activity, ← same]
    rfl
  have begun := since.reached.attended.own task under key request
  rw [id] at begun
  apply Nat.lt_of_not_le
  intro younger
  exact other (since.own_of_begun calm younger begun)

/-- What the move of another operation does to a caller. It stays where it stands, it is handed a
response under its key, or it is released with its slot; a caller that has mail already keeps it. -/
theorem waits_of_other (since : s.Since settings recent past e key span r)
    (after : s'.Since settings (n :: recent) past e key span r) (moved : s.Moved s' n)
    (unmeddled : recent.forgets key.handle = false → n.operation < e.operation → ¬ n.Meddles key)
    (other : n.operation ≠ e.operation) (others : n.turn.caller? ≠ some call)
    (old : call < s.exchange.awaited.calls) (waits : s.Waits recent key call) :
    s'.Waits (n :: recent) key call := by
  have accounted := since.reached.accounted
  cases waits with
  | delivered mem got => exact .delivered (List.mem_append_right _ mem) (moved.keeps got old others)
  | released gone nothing got =>
      refine .released ?_ ?_ (moved.keeps got old others)
      · rw [History.forgets_cons, gone, Bool.or_true]
      · rw [History.handed, if_pos gone, nothing]
        rfl
  | stands calm nothing stands =>
      have handed := History.handed_of_calm (n := n) calm nothing
      have fate := moved.fate since.reached.attended since.reached.numbered since.reached.single
        accounted stands others
      rcases fate with stays | ⟨m, mem, same, got⟩ | ⟨frees, got⟩
      · have steady := moved.steady_of_waiting accounted old stays.waiting
        refine .stands ?_ ?_ stays
        · rw [History.forgets_cons, steady, calm]
          rfl
        · rw [handed]
          exact moved.unposted_of_waiting stays.waiting
      · refine .delivered ?_ got
        rw [handed]
        exact List.mem_filter.mpr ⟨mem, beq_iff_eq.mpr same⟩
      · cases frees with
        | forgotten gone =>
            refine .released ?_ ?_ got
            · rw [History.forgets_cons, gone]
              rfl
            · rw [handed, Entry.posts_of_restarts gone]
              rfl
        -- Another request under the key would be the twin of this one, for which too few have
        -- begun.
        | begun mem =>
            have twin : (n.operation, key) ∈ History.begun (n :: recent) :=
              List.mem_append_left _ (List.mem_map_of_mem mem)
            refine absurd twin (after.not_begun ?_ _)
            rw [History.forgets_cons, moved.steady_of_begun accounted.wellFormed mem, calm]
            rfl
        -- Whoever has offered a request under the key started before, and such a one does not
        -- meddle.
        | refused turn purpose same pending =>
            have older := since.older_of_refused moved calm other turn purpose same
            exact absurd (.refuses turn purpose same pending) (unmeddled calm older)

/-- A move of another operation leaves a caller what it is about. -/
theorem awaiting_of_other (since : s.Since settings recent past e key span r)
    (after : s'.Since settings (n :: recent) past e key span r) (moved : s.Moved s' n)
    (unmeddled : recent.forgets key.handle = false → n.operation < e.operation → ¬ n.Meddles key)
    (other : n.operation ≠ e.operation) (awaiting : s.Awaiting recent e key span r) :
    s'.Awaiting (n :: recent) e key span r := by
  have before {task : Task} (mem : task ∈ s'.tasks) (same : task.id = e.operation) :
      task ∈ s.tasks := by
    rcases moved.task_cases since.reached.orderly mem with mine | ⟨under, -⟩
    · exact absurd ((moved.task_id mine).1.symm.trans same) other
    · exact under
  constructor
  · intro m mem
    rcases List.mem_append.mp mem with new | mem
    · split at new
      · cases new
      · rename_i calm
        rw [Bool.not_eq_true] at calm
        obtain ⟨mem, same⟩ := List.mem_filter.mp new
        rw [beq_iff_eq] at same
        refine since.reports moved after.reached calm (Nat.not_lt.mp ?_) mem same
        intro older
        exact unmeddled calm older (.posts mem same)
    · exact (awaiting.reports m mem).step moved
  · intro task mem same
    have awaits := awaiting.activity task (before mem same) same
    generalize task.activity = activity at awaits
    cases awaits with
    | offering request => exact .offering request
    | reply serves =>
        exact .reply (serves.mono (List.subset_cons_self n recent) (unended_of_later moved))
  · intro task mem same
    have under := before mem same
    have caller := (awaiting.activity task under same).caller
    have old := since.reached.attended.old task under _ caller
    refine since.waits_of_other after moved unmeddled other ?_ old (awaiting.waits task under same)
    intro mover
    cases turn : n.turn with
    | begins operation =>
        rw [turn] at mover
        cases mover
    | goesOn former reply =>
        rw [turn] at mover
        obtain ⟨task', under', id, -, rfl⟩ := moved.former turn
        have one := since.reached.attended.apart task under task' under' _ caller mover
        exact other (id.symm.trans (one.symm.trans same))

end Since

/-- A caller that has just been given its number stands in the table. -/
theorem Moved.awaiting (moved : s.Moved s' e) (reached : Reachable settings s)
    (after : Reachable settings s') (asks : e.Asks key span r) : s'.Awaiting [] e key span r := by
  obtain ⟨message, same, progress⟩ := asks.offers
  constructor
  · intro m mem
    cases mem
  · intro task mem id
    rcases moved.task_cases reached.orderly mem with mine | ⟨-, apart⟩
    · have left := (moved.task_id mine).2.2
      rw [progress] at left
      rw [← Progress.waiting.inj left]
      exact .offering same
    · exact absurd id apart
  · intro task mem id
    have awaited := asks.awaited
    rw [moved.before, ← moved.after] at awaited
    rw [moved.before]
    refine .stands rfl rfl (after.single.stands ?_ ?_)
    · rw [awaited]
      exact List.mem_append_right _ List.mem_cons_self
    · rw [awaited]
      exact reached.numbered.mailFor_enlist key

theorem Reachable.awaiting (reached : Reachable settings s)
    (split : s.history = recent ++ e :: past) (asks : e.Asks key span r)
    (few : (recent.begunOn key.handle key.command).length < 256)
    (undisturbed : recent.Undisturbed e.operation key) : s.Awaiting recent e key span r := by
  revert few undisturbed
  refine reached.since (P := fun recent s => (recent.begunOn key.handle key.command).length < 256 →
    recent.Undisturbed e.operation key → s.Awaiting recent e key span r) split ?_ ?_
  · intro s s' before after moved _ _ _
    exact moved.awaiting before after asks
  · intro recent s s' n before after split moved ih few undisturbed
    obtain ⟨unmeddled, earlier⟩ := History.everywhere_cons.mp undisturbed
    have fewer := History.few_of_suffix few (List.suffix_cons n recent)
    have since : s.Since settings recent past e key span r := ⟨before, split, asks, fewer⟩
    have since' : s'.Since settings (n :: recent) past e key span r :=
      ⟨after, by rw [moved.history, split]; rfl, asks, few⟩
    by_cases own : n.operation = e.operation
    · exact since.awaiting_of_own moved own (ih fewer earlier)
    · exact since.awaiting_of_other since' moved unmeddled own (ih fewer earlier)

end Session

end HubRelay
