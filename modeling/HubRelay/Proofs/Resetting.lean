import HubRelay.Proofs.Session.Telling
import HubRelay.Proofs.Session.Waiting

/-!
What a reset does, and what it lets be.

It takes effect in its first move: nothing is pending any more, and whoever waited for a response is
sent away. The endpoints that stood then are told in later moves, and between these other endpoints
may come and go and requests begin. Those are left alone.
-/

namespace HubRelay

/-! ### Directories -/

theorem Directory.Kept.after {d : Directory} (kept : d.Kept) (call : Directory.Call) :
    (d.after call).Kept :=
  (changes_after kept.room call).kept kept

theorem Directory.Kept.mem_entries_iff {d : Directory} (kept : d.Kept) {r : Registration} :
    r ∈ d.entries ↔ d.find? r.handle = some r := by
  constructor
  · intro mem
    obtain ⟨⟨handle, _⟩, stands, rfl⟩ := List.mem_map.mp mem
    have found := Table.find?_eq_some_iff.mpr stands
    rwa [kept.keyed handle _ found]
  · exact fun found => List.mem_map.mpr ⟨_, Table.mem_entries_of_find? found, rfl⟩

theorem Directory.Kept.pairwise_entries {d : Directory} (kept : d.Kept) :
    d.entries.Pairwise (·.handle < ·.handle) := by
  have keyed : ∀ entry ∈ d.table.entries, entry.2.handle = entry.1 := fun entry mem =>
    kept.keyed _ _ (Table.find?_eq_some_iff.mpr mem)
  refine List.pairwise_map.mpr (d.table.ascending.imp_of_mem fun mem mem' less => ?_)
  rw [keyed _ mem, keyed _ mem']
  exact UInt8.lt_iff_toNat_lt.mpr less

theorem Exchange.kept_ofSettings (settings : Settings) :
    (Exchange.ofSettings settings).directory.Kept := by
  have empty := Directory.kept_ofCapacity settings.maxEndpoints
  let echo : Directory.Call := .registerAt Echo.handle Echo.serviceDescriptor .echo
  unfold ofSettings
  split
  · have placed := (Directory.start_call
      { settings, directory := .ofCapacity settings.maxEndpoints } echo 0).1
    exact (congrArg Directory.Kept placed).mpr (empty.after echo)
  · exact empty

theorem Session.Moved.kept {s s' : Session} {e : Entry} (moved : s.Moved s' e)
    (kept : s.exchange.directory.Kept) : s'.exchange.directory.Kept := by
  have deed := moved.deed
  rw [moved.after]
  rw [← moved.before] at kept
  obtain ⟨operation, found, turn, now, before, after, progress⟩ := e
  simp only at deed kept ⊢
  cases deed with
  | @enrolled descriptor endpoint handle d registered =>
      have placed := kept.after (.register descriptor endpoint)
      rwa [Directory.after, registered] at placed
  | @enrolledAt descriptor endpoint wish handle d registered =>
      have placed := kept.after (.registerAt wish descriptor endpoint)
      rwa [Directory.after, registered] at placed
  | @dismissed handle r d gone =>
      have erased := kept.after (.unregister handle)
      rwa [Directory.after, gone] at erased
  | _ => exact kept

theorem Session.Reachable.kept {settings : Settings} {s : Session}
    (reached : Reachable settings s) : s.exchange.directory.Kept := by
  induction reached with
  | fresh => exact Exchange.kept_ofSettings settings
  | step _ stepped kept =>
      obtain ⟨e, moved⟩ := moved_of_step stepped
      exact moved.kept kept

/-! ### Resets -/

/-- A turn that takes a frame, scans, or goes on after an endpoint was called. -/
def Turn.delivers : Turn → Bool
  | .begins (.receive _) | .begins (.scan _) | .goesOn (.serving _) _ => true
  | _ => false

theorem Entry.posts_of_not_delivers {e : Entry} (sends : e.turn.delivers = false) :
    e.posts = [] := by
  obtain ⟨operation, found, turn, now, before, after, progress⟩ := e
  cases turn with
  | begins operation =>
      cases operation with
      | receive | scan => cases sends
      | _ => rfl
  | goesOn activity reply =>
      cases activity with
      | serving => cases sends
      | _ => rfl

/-- Nothing is under way: no request is pending, none that was received is open, and no deadline
lies ahead. -/
structure Exchange.Blank (x : Exchange) : Prop where
  idle : ∀ handle command, x.isPending handle command = false
  closed : ∀ handle command, x.ledger.incoming? handle command = none
  timeless : x.nextTimeout = none

theorem Exchange.blank_cleared (x : Exchange) : x.cleared.Blank where
  idle handle command := by
    rw [isPending, Ledger.isPending_eq]
    show (Ledger.empty.slotAt handle command).outgoing.pending = false
    rw [Ledger.slotAt_empty]
  closed handle command := by
    show (Ledger.empty.slot? handle command).map Slot.incoming = none
    rw [Ledger.slot?_empty]
    rfl
  timeless := rfl

namespace Session

variable {settings : Settings} {s s' : Session} {now : Instant} {recent : History}
variable {task : Task} {wait : ReplyWait}

/-- A reset releases the callers that are under way and have got nothing yet. -/
theorem Reachable.got_cleared (reached : Reachable settings s) (mem : task ∈ s.tasks)
    {call : CallId} (caller : task.activity.caller? = some call)
    (nothing : s.exchange.awaited.mailFor call = .nothing) :
    s.exchange.cleared.awaited.Got call .released := by
  obtain ⟨key, request⟩ := Activity.request?_of_caller? caller
  rcases reached.attended.standing task mem key call request caller with mail | ⟨waiting, -⟩
  · exact absurd mail (Awaited.mailFor_eq_nothing_iff.mp nothing)
  · exact (reached.single.stands waiting nothing).releaseWhere fun _ => true

theorem Reachable.leaves_of_reset (reached : Reachable settings s) (mem : task ∈ s.tasks)
    (activity : task.activity = .blocked (.reply wait))
    (nothing : s.exchange.awaited.mailFor wait.call = .nothing) (now : Instant) :
    (s.start .reset now).Leaves task wait.call := by
  have moved := s.moved_starting .reset now
  have caller : task.activity.caller? = some wait.call := congrArg Activity.caller? activity
  have got := reached.got_cleared mem caller nothing
  have started := reached.orderly.old task mem
  have underWay : s.EndsLike task.id (.replied (.error .reset)) :=
    .inl ⟨⟨task, mem, rfl⟩, reached.outcomes_of_under mem⟩
  rw [s.exchange.start_reset now] at moved
  constructor
  · rw [moved.after]
    exact reached.attended.old task mem wait.call caller
  · exact Nat.lt_of_lt_of_le started moved.started_le
  · exact underWay.other reached.orderly moved (Nat.ne_of_gt started)
  · intro other under same
    rw [moved.after]
    rcases moved.task_cases reached.orderly under with mine | ⟨before, -⟩
    · exact absurd ((moved.task_id mine).1.symm.trans same) (Nat.ne_of_gt started)
    · exact ⟨List.inj_on_of_nodup_map reached.orderly.distinct before mem same, got⟩

/-- A reset that was started in the session `s` has come to `s'`; `recent` are the moves after its
first. Whom it has told so far is read off its own moves among them; what it leaves to others is
said of all of them. -/
structure Resets (s s' : Session) (now : Instant) (recent : History) : Prop where
  /-- Before an endpoint is told everything under way is forgotten, and whoever waits for a response
  is released. -/
  blank : (s.start .reset now).exchange.Blank
  freed : ∀ task ∈ s.tasks, ∀ call, task.activity.caller? = some call →
    s.exchange.awaited.mailFor call = .nothing →
      (s.start .reset now).exchange.awaited.mailFor call = .released
  /-- Those who stood then are told one after the other by their handles, also if they have gone
  since. -/
  tells : s'.Tells s.started s.exchange.directory.entries
  /-- They are all who could be found at their handles when it started, and nobody else. -/
  stood : ∀ r, r ∈ s.exchange.directory.entries ↔ s.exchange.directory.find? r.handle = some r
  /-- Their handles ascend, so nobody is told twice. -/
  ascending : s.exchange.directory.entries.Pairwise (·.handle < ·.handle)
  /-- Those who came since are not. -/
  newcomers : ∀ n ∈ recent, ∀ handle r, n.after.directory.find? handle = some r →
    n.before.directory.find? handle ≠ some r → r ∉ s.exchange.directory.entries
  /-- The reset itself offers no frame and calls no handler, and changes nothing more. -/
  silent : (s'.history.moves s.started).offers = [] ∧ (s'.history.moves s.started).called = [] ∧
    (s'.history.moves s.started).calls = []
  unchanged : ∀ n ∈ recent, n.operation = s.started → n.after = n.before
  /-- Whoever waited for a response returns with a reset. -/
  callers : ∀ task ∈ s.tasks, ∀ wait, task.activity = .blocked (.reply wait) →
    s.exchange.awaited.mailFor wait.call = .nothing → s'.Released task wait.call
  /-- A request begun since is pending unless another operation has ended it. -/
  requests : ∀ newer e past, recent = newer ++ e :: past → ∀ key ∈ e.begun,
    (∀ n ∈ newer, n.operation ≠ s.started → key ∉ n.ended) →
      s'.exchange.ledger.awaits key = true
  /-- Its caller still waits for it, unless a response was handed over under its key. -/
  waiters : ∀ newer e past, recent = newer ++ e :: past → ∀ key ∈ e.begun, ∀ payload span,
    e.turn = .begins (.sendAndAwait key.handle key.command payload span) →
      (∀ n ∈ newer, n.operation ≠ s.started → ¬ n.Ends key) →
        s'.exchange.awaited.Stands key e.before.awaited.calls
  /-- Those who come, go or send hand nothing over. -/
  deliverers : ∀ n ∈ recent, n.turn.delivers = false → n.posts = []

/-- The first move of a reset that is started in `s`. -/
def resetEntry (s : Session) (now : Instant) : Entry :=
  s.entry .reset now (s.exchange.cleared, .telling s.exchange.directory.entries)

theorem moved_resetting (s : Session) (now : Instant) :
    s.Moved (s.start .reset now) (s.resetEntry now) := by
  have moved := s.moved_starting .reset now
  rwa [Exchange.start_reset] at moved

/-- The moves of a reset after its first one leave everything as it is. -/
theorem Reachable.unchanged_of_own (reached' : Reachable settings s')
    (split : s'.history = recent ++ s.resetEntry now :: s.history) (orderly : s.Orderly) {n : Entry}
    (mem : n ∈ recent) (own : n.operation = s.started) : n.after = n.before := by
  have first : s.resetEntry now ∈ s'.history := split ▸ List.mem_append_right _ List.mem_cons_self
  obtain ⟨latest, earlier, moves, tells⟩ := reached'.moves_tell first rfl
  obtain ⟨later, same, quiet⟩ := tells.unchanged
  have none : s.history.moves s.started = [] := List.filter_eq_nil_iff.mpr fun e mem => by
    simpa using Nat.ne_of_lt (orderly.entries e mem)
  have parts : s'.history.moves s.started = recent.moves s.started ++ [s.resetEntry now] := by
    have own : (s.resetEntry now).operation = s.started := rfl
    rw [split, History.moves, List.filter_append, ← History.moves, ← History.moves,
      History.moves_cons_of_eq own, none]
  have alike := (List.append_inj' ((parts.symm.trans moves).trans same) rfl).1
  exact quiet n (alike ▸ History.mem_moves.mpr ⟨mem, own⟩)

theorem Reachable.not_ends_of_own (reached' : Reachable settings s')
    (split : s'.history = recent ++ s.resetEntry now :: s.history) (orderly : s.Orderly) {n : Entry}
    (mem : n ∈ recent) (own : n.operation = s.started) (key : RequestKey) : ¬ n.Ends key := by
  have first : s.resetEntry now ∈ s'.history := split ▸ List.mem_append_right _ List.mem_cons_self
  have here : n ∈ s'.history := split ▸ List.mem_append_left _ mem
  obtain ⟨latest, earlier, moves, tells⟩ := reached'.moves_tell first rfl
  have sound : n.Sound := reached'.of_mem
    (fun before moved => moved.sound before.accounted.wellFormed) here
  have same := reached'.unchanged_of_own split orderly mem own
  rintro (ended | ⟨answered, -⟩)
  · obtain ⟨pending, gone⟩ := sound.mem_ended.mp ended
    rw [same, pending] at gone
    cases gone
  · have silent := tells.silent n (moves ▸ History.mem_moves.mpr ⟨here, own⟩)
    rw [silent.posts] at answered
    cases answered

/-- A caller whose request began waits for the response as long as nothing ends the request and
nothing is handed over under its key. This is how callers that come after the reset are seen to be
left alone by it. -/
theorem Reachable.stands_of_begun (reached : Reachable settings s) {newer past : History}
    {e : Entry} {key : RequestKey} (split : s.history = newer ++ e :: past) (begun : key ∈ e.begun)
    {payload : Bytes} {span : Span}
    (turn : e.turn = .begins (.sendAndAwait key.handle key.command payload span))
    (spared : ∀ n ∈ newer, ¬ n.Ends key) :
    s.exchange.awaited.Stands key e.before.awaited.calls := by
  obtain ⟨s₀, s₁, before, -, moved, -⟩ := reached.moved_of_split split
  have wf := before.accounted.wellFormed
  rcases moved.asks wf turn with ⟨same, -⟩ | ⟨transaction, r, asks⟩
  · obtain ⟨pending, idle⟩ := (moved.sound wf).mem_begun.mp begun
    rw [same, idle] at pending
    cases pending
  · rw [asks.begun, List.mem_singleton] at begun
    rw [← begun] at asks
    exact (reached.withstands split asks spared).stands

/-- Who comes while a reset is under way is none of those that are told. -/
theorem Reachable.not_mem_entries_of_new (reached : Reachable settings s)
    (reached' : Reachable settings s')
    (split : s'.history = recent ++ s.resetEntry now :: s.history) {n : Entry} (mem : n ∈ recent)
    {handle : Handle} {r : Registration}
    (stands : n.after.directory.find? handle = some r)
    (new : n.before.directory.find? handle ≠ some r) : r ∉ s.exchange.directory.entries := by
  obtain ⟨newer, older, rfl⟩ := List.append_of_mem mem
  rw [List.append_assoc, List.cons_append] at split
  obtain ⟨s₀, _, reached₀, -, moved, history⟩ := reached'.moved_of_split split
  intro stood
  have first : s.resetEntry now ∈ s₀.history := history ▸ List.mem_append_right _ List.mem_cons_self
  -- Who stood at the start has a number from before, and who comes gets a new one.
  have former := reached₀.serial.former _ first r.handle r (reached.kept.mem_entries_iff.mp stood)
  rcases Entry.find?_cases moved.registers stands with ⟨before, -⟩ | ⟨number, -⟩
  · exact new before
  · rw [number, moved.before] at former
    exact Nat.lt_irrefl _ former

end Session

/-- A reset reaches everyone who stood when it started. Before it tells anybody, everything under
way is forgotten. It then tells each of them once, in the order of their handles, also who has gone
in the meantime, and ends nothing that has begun since.

The moves in between are arbitrary: endpoints may be registered and unregistered, requests sent and
answered, also by the endpoints that are being told. -/
theorem resets_reach_everyone {settings : Settings} {s s' : Session} {now : Instant}
    {moves : List Move} (reached : Session.Reachable settings s)
    (ran : (s.start .reset now).run moves = some s') :
    ∃ recent, s'.history = recent ++ s.resetEntry now :: s.history ∧ s.Resets s' now recent := by
  have moved := s.moved_resetting now
  have reached₁ : Session.Reachable settings (s.start .reset now) :=
    reached.step (rfl : s.step (.start .reset now) = some _)
  have reached' := reached₁.run ran
  obtain ⟨recent, split⟩ := Session.exists_recent ran
  rw [moved.history] at split
  have first : s.resetEntry now ∈ s'.history := split ▸ List.mem_append_right _ List.mem_cons_self
  -- The own moves of the reset end nothing after the first, so only those of others count.
  have others {n : Entry} (mem : n ∈ recent) (own : n.operation = s.started) (key : RequestKey) :
      ¬ n.Ends key := reached'.not_ends_of_own split reached.orderly mem own key
  obtain ⟨latest, earlier, strand, tells⟩ := reached'.moves_tell first rfl
  have begins : (s.resetEntry now).operation = s.started := rfl
  rw [begins] at strand
  refine ⟨recent, split, ?_⟩
  constructor
  case blank =>
    rw [moved.after]
    exact s.exchange.blank_cleared
  case freed =>
    intro task mem call caller nothing
    rw [moved.after]
    exact (reached.got_cleared mem caller nothing).mail
  case tells => exact reached'.tells first rfl
  case stood => exact fun _ => reached.kept.mem_entries_iff
  case ascending => exact reached.kept.pairwise_entries
  case newcomers =>
    exact fun n mem handle r stands new =>
      reached.not_mem_entries_of_new reached' split mem stands new
  case silent =>
    rw [strand]
    exact ⟨List.flatMap_eq_nil_iff.mpr fun n mem => (tells.silent n mem).offers,
      List.flatMap_eq_nil_iff.mpr fun n mem => (tells.silent n mem).called,
      History.calls_of_silent tells.silent⟩
  case unchanged =>
    exact fun n mem own => reached'.unchanged_of_own split reached.orderly mem own
  case callers =>
    intro task mem wait activity nothing
    have leaves := reached.leaves_of_reset mem activity nothing now
    exact (leaves.run reached₁ activity ran).released reached' activity
  case requests =>
    rintro newer e past rfl key begun spared
    refine reached'.awaits_of_begun (split.trans (List.append_assoc ..)) begun fun n mem ended => ?_
    by_cases own : n.operation = s.started
    · exact others (List.mem_append_left _ mem) own key (.ended ended)
    · exact spared n mem own ended
  case waiters =>
    rintro newer e past rfl key begun payload span turn spared
    refine reached'.stands_of_begun (split.trans (List.append_assoc ..)) begun turn
      fun n mem ends => ?_
    by_cases own : n.operation = s.started
    · exact others (List.mem_append_left _ mem) own key ends
    · exact spared n mem own ends
  case deliverers => exact fun n _ sends => Entry.posts_of_not_delivers sends

theorem Exchange.ledger_registerAt (x : Exchange) (wish : Handle) (descriptor : Descriptor)
    (endpoint : Endpoint) : (x.registerAt wish descriptor endpoint).1.ledger = x.ledger := by
  unfold registerAt
  split <;> rfl

theorem Session.exists_two : ∃ s, Session.Reachable {} s ∧
    s.exchange.directory.entries.map Registration.handle = [16, 17] ∧
    (s.exchange.directory.find? 16).map (·.descriptor.commands) = some 1 ∧
    s.exchange.ledger = .empty ∧ s.tasks = [] := by
  let first : Directory.Call := .registerAt 16 (.single .client) (.custom 0)
  let second : Directory.Call :=
    .registerAt 17 { Descriptor.single .client with uuid := Uuid.ofNat 2 } (.custom 1)
  have initial : Reachable {} (ofSettings {}) := .fresh
  obtain ⟨s₁, reached₁, exchange₁, -, tasks₁, -⟩ := initial.starts first.operation 0 rfl
  obtain ⟨s₂, reached₂, exchange₂, -, tasks₂, -⟩ := reached₁.starts second.operation 0 rfl
  have directory : s₂.exchange.directory = (Directory.ofCapacity 16).run [first, second] := by
    rw [exchange₂, (Directory.start_call _ second 0).1, exchange₁,
      (Directory.start_call _ first 0).1]
    rfl
  have ledger : s₂.exchange.ledger = .empty := by
    rw [exchange₂]
    refine (Exchange.ledger_registerAt _ _ _ _).trans ?_
    rw [exchange₁]
    show ((Exchange.ofSettings {}).registerAt 16 (.single .client) (.custom 0)).1.ledger = .empty
    exact (Exchange.ledger_registerAt _ _ _ _).trans (Exchange.ledger_ofSettings {}).1
  refine ⟨s₂, reached₂, ?_, ?_, ledger, ?_⟩
  · rw [directory]
    decide
  · rw [directory]
    decide
  · rw [tasks₂, tasks₁]
    rfl

/-- The first endpoint that is told takes the second one away, and a caller waits for a response:
the second endpoint is told, and the caller is sent away. -/
theorem resets_reach_everyone_gone :
    ∃ (s s' : Session) (task : Task) (wait : ReplyWait) (later : List Move) (recent : History),
      Session.Reachable {} s ∧ s.tasks = [task] ∧ task.activity = .blocked (.reply wait) ∧
        s.exchange.directory.entries.map Registration.handle = [16, 17] ∧
        ((s.start .reset 0).start (.unregister 17) 0).exchange.directory.find? 17 = none ∧
        (s.start .reset 0).run (.start (.unregister 17) 0 :: later) = some s' ∧
        s.Resets s' 0 recent ∧ s'.history.outcomes s.started = [.announced] ∧
        (s'.history.moves s.started).notified.map Registration.handle = [16, 17] ∧
        s'.Released task wait.call := by
  obtain ⟨s₀, reached₀, handles, commands, ledger, idle⟩ := Session.exists_two
  obtain ⟨r, found, size⟩ := Option.map_eq_some_iff.mp commands
  have new : s₀.exchange.ledger.slotAt 16 0 = { handle := 16, command := 0 } := by
    rw [ledger, Ledger.slotAt_empty]
  obtain ⟨s, -, -, task, reached, -, -, -, -, -, -, exchange, -, tasks, -, activity⟩ :=
    reached₀.blocks found (size ▸ (by decide : (0 : Command) < 1)) new
      (show (0 : Span) < 20 by decide)
  rw [idle] at tasks
  have mem : task ∈ s.tasks := tasks ▸ List.mem_cons_self
  have nothing : s.exchange.awaited.mailFor s₀.exchange.awaited.calls = .nothing := by
    rw [exchange]
    exact reached₀.numbered.mailFor_enlist ⟨16, 0, 0⟩
  have entries : s.exchange.directory.entries.map Registration.handle = [16, 17] := by
    rw [exchange]
    exact handles
  have gone : ((s.start .reset 0).start (.unregister 17) 0).exchange.directory.find? 17 = none := by
    have directory : ((s.start .reset 0).start (.unregister 17) 0).exchange.directory =
        (s.start .reset 0).exchange.directory.after (.unregister 17) :=
      (Directory.start_call _ (.unregister 17) 0).1
    rw [directory, Directory.find?_after_unregister]
    exact if_pos rfl
  -- The first endpoint has not answered yet, or the reset is through already.
  obtain ⟨later, s', ran, ended⟩ : ∃ later s',
      (s.start .reset 0).run (.start (.unregister 17) 0 :: later) = some s' ∧
        s'.history.outcomes s.started = [.announced] := by
    have ran := (s.start .reset 0).run_start (.unregister 17) 0 []
    obtain ⟨recent, -, resets⟩ := resets_reach_everyone reached ran
    rcases resets.tells with ⟨ended, -⟩ | ⟨-, -, -, -, -, -, ends⟩
    · exact ⟨[], _, ran, ended⟩
    · obtain ⟨s', rest, ended⟩ := ends 0
      exact ⟨_, s', (Session.run_start _ _ 0 _).trans rest, ended⟩
  obtain ⟨recent, -, resets⟩ := resets_reach_everyone reached ran
  refine ⟨s, s', task, _, later, recent, reached, tasks, activity, entries, gone, ran, resets,
    ended, ?_, resets.callers task mem _ activity nothing⟩
  rcases resets.tells with ⟨-, notified⟩ | ⟨-, -, -, running, -⟩
  · rw [notified, entries]
  · rw [running] at ended
    cases ended

end HubRelay
