import HubRelay.Proofs.Session.Requests

/-!
The callers that are blocked, and the requests that they wait for.

A caller that awaits a response either still stands in the table of waiting callers, and then its
own request was begun since its slot was last forgotten, or there is mail for it. So a caller whose
slot was forgotten is always released before it can end a request, and no caller ever waits under
the key of a request that its slot has forgotten.
-/

namespace HubRelay

/-! ### The table of callers -/

namespace Awaited

variable {a b c : Awaited} {call : CallId}

/-- Whether something has come for a caller. -/
def HasMail (a : Awaited) (call : CallId) : Prop := ∃ m ∈ a.mail, m.1 = call

theorem mailFor_eq_nothing_iff : a.mailFor call = .nothing ↔ ¬ a.HasMail call := by
  unfold mailFor HasMail
  cases found : a.mail.find? fun m => m.1 == call with
  | none =>
      simp only [true_iff]
      rintro ⟨m, mem, same⟩
      have := List.find?_eq_none.mp found m mem
      simp [same] at this
  | some m =>
      have mem := List.mem_of_find?_eq_some found
      have same : m.1 = call := by simpa using List.find?_some found
      obtain ⟨other, message⟩ := m
      have mail : ∃ m ∈ a.mail, m.1 = call := ⟨_, mem, same⟩
      cases message with
      | none => simp [mail]
      | some message => simp [mail]

/-- A caller that stands in the table stays there or gets mail, and mail stays. It is reflexive and
transitive, so a deed that does several things to the table is taken one at a time. -/
structure Minds (a b : Awaited) (call : CallId) : Prop where
  waiting : ∀ key, (key, call) ∈ a.waiting → (key, call) ∈ b.waiting ∨ b.HasMail call
  mail : a.HasMail call → b.HasMail call

theorem Minds.refl (a : Awaited) (call : CallId) : a.Minds a call :=
  ⟨fun _ mem => .inl mem, id⟩

/-- A caller that is left alone twice is left alone. -/
theorem Minds.trans (first : a.Minds b call) (second : b.Minds c call) : a.Minds c call where
  waiting := by
    intro key mem
    rcases first.waiting key mem with mem | mail
    · exact second.waiting key mem
    · exact .inr (second.mail mail)
  mail := fun mail => second.mail (first.mail mail)

/-- Sending callers away gives them mail; the other callers are left alone. -/
theorem minds_releaseWhere (a : Awaited) (leaves : RequestKey → Bool) (call : CallId) :
    a.Minds (a.releaseWhere leaves) call where
  waiting := by
    intro key mem
    cases goes : leaves key with
    | true =>
        refine .inr ⟨(call, none), List.mem_append_right _ ?_, rfl⟩
        exact List.mem_map.mpr ⟨(key, call), List.mem_filter.mpr ⟨mem, goes⟩, rfl⟩
    | false => exact .inl (List.mem_filter.mpr ⟨mem, by simp [goes]⟩)
  mail := by
    rintro ⟨m, mem, same⟩
    exact ⟨m, List.mem_append_left _ mem, same⟩

theorem minds_release (a : Awaited) (key : RequestKey) (call : CallId) :
    a.Minds (a.release key) call := minds_releaseWhere a _ call

theorem minds_post (a : Awaited) (message : Message) (call : CallId) :
    a.Minds (a.post message) call where
  waiting := by
    intro key mem
    by_cases here : key = message.header.key
    · refine .inr ⟨(call, some message), List.mem_append_right _ ?_, rfl⟩
      exact List.mem_map.mpr ⟨(key, call), List.mem_filter.mpr ⟨mem, by simp [here]⟩, rfl⟩
    · exact .inl (List.mem_filter.mpr ⟨mem, by simp [here]⟩)
  mail := by
    rintro ⟨m, mem, same⟩
    exact ⟨m, List.mem_append_left _ mem, same⟩

theorem minds_postAll (a : Awaited) (messages : List Message) (call : CallId) :
    a.Minds (a.postAll messages) call := by
  induction messages generalizing a with
  | nil => exact .refl a call
  | cons message rest ih => exact (minds_post a message call).trans (ih _)

/-- Forgetting a caller leaves the others alone. -/
theorem minds_forget (a : Awaited) {gone : CallId} (other : call ≠ gone) :
    a.Minds (a.forget gone) call where
  waiting := fun key mem => .inl mem
  mail := by
    rintro ⟨m, mem, same⟩
    exact ⟨m, List.mem_filter.mpr ⟨mem, by simp [same, other]⟩, same⟩

/-- A new caller does not disturb those who wait, except for one that waits under its key. -/
theorem minds_enlist (a : Awaited) (key : RequestKey) (call : CallId) :
    a.Minds (a.enlist key).2 call where
  waiting := by
    intro other mem
    rcases (minds_release a key call).waiting other mem with mem | mail
    · exact .inl (List.mem_append_left _ mem)
    · exact .inr mail
  mail := (minds_release a key call).mail

theorem mem_waiting_releaseWhere {leaves : RequestKey → Bool} {w : RequestKey × CallId} :
    w ∈ (a.releaseWhere leaves).waiting ↔ w ∈ a.waiting ∧ leaves w.1 = false := by
  simp [releaseWhere]

/-- Whoever is sent away has mail. -/
theorem hasMail_releaseWhere {leaves : RequestKey → Bool} {w : RequestKey × CallId}
    (mem : w ∈ a.waiting) (goes : leaves w.1 = true) : (a.releaseWhere leaves).HasMail w.2 := by
  refine ⟨(w.2, none), List.mem_append_right _ ?_, rfl⟩
  exact List.mem_map.mpr ⟨w, List.mem_filter.mpr ⟨mem, goes⟩, rfl⟩

theorem mem_waiting_of_release (a : Awaited) (key : RequestKey) {w : RequestKey × CallId}
    (mem : w ∈ (a.release key).waiting) : w ∈ a.waiting := (mem_waiting_releaseWhere.mp mem).1

theorem mem_waiting_of_post {message : Message} {w : RequestKey × CallId}
    (mem : w ∈ (a.post message).waiting) : w ∈ a.waiting := (List.mem_filter.mp mem).1

/-- Nobody begins to wait because responses are handed over. -/
theorem mem_waiting_of_postAll {messages : List Message} {w : RequestKey × CallId}
    (mem : w ∈ (a.postAll messages).waiting) : w ∈ a.waiting := by
  induction messages generalizing a with
  | nil => exact mem
  | cons message rest ih => exact mem_waiting_of_post (ih mem)

theorem calls_postAll (a : Awaited) (messages : List Message) :
    (a.postAll messages).calls = a.calls := by
  induction messages generalizing a with
  | nil => rfl
  | cons message rest ih => exact ih (a.post message)

/-- A message for a key under which nobody waits changes nothing. -/
theorem post_of_unawaited {message : Message}
    (nobody : ∀ w ∈ a.waiting, w.1 ≠ message.header.key) : a.post message = a := by
  have stay : (a.waiting.filter fun w => w.1 != message.header.key) = a.waiting :=
    List.filter_eq_self.mpr fun w mem => by simp [nobody w mem]
  have none : (a.waiting.filter fun w => w.1 == message.header.key) = [] :=
    List.filter_eq_nil_iff.mpr fun w mem => by simp [nobody w mem]
  simp [post, stay, none]

/-- Sending away whoever waits under a key changes nothing if nobody does. -/
theorem release_of_unawaited {key : RequestKey} (nobody : ∀ w ∈ a.waiting, w.1 ≠ key) :
    a.release key = a := by
  have stay : (a.waiting.filter fun w => !(w.1 == key)) = a.waiting :=
    List.filter_eq_self.mpr fun w mem => by simp [nobody w mem]
  have none : (a.waiting.filter fun w => w.1 == key) = [] :=
    List.filter_eq_nil_iff.mpr fun w mem => by simp [nobody w mem]
  simp [release, releaseWhere, stay, none]

end Awaited

/-! ### The caller in an activity -/

/-- The request that an activity is about, if it is about one that its operation began. -/
def Activity.request? : Activity → Option RequestKey
  | .offering ⟨message, .request _⟩ => some message.header.key
  | .blocked (.reply wait) => some wait.key
  | _ => none

/-- The caller that is to get the response. -/
def Activity.caller? : Activity → Option CallId
  | .offering ⟨_, .request (some (call, _))⟩ => some call
  | .blocked (.reply wait) => some wait.call
  | _ => none

/-- The caller that makes a turn. -/
def Turn.caller? : Turn → Option CallId
  | .begins _ => none
  | .goesOn activity _ => activity.caller?

/-- An operation with a caller is about a request that it began. -/
theorem Activity.request?_of_caller? {activity : Activity} {call : CallId}
    (caller : activity.caller? = some call) : ∃ key, activity.request? = some key := by
  unfold Activity.caller? at caller
  split at caller
  · exact ⟨_, rfl⟩
  · exact ⟨_, rfl⟩
  · cases caller

/-- A turn of a caller is about the request that the caller waits for. -/
theorem Turn.AwaitsReply.activity {turn : Turn} {now : Instant} {wait : ReplyWait}
    (awaits : turn.AwaitsReply now wait) :
    ∃ activity reply, turn = .goesOn activity reply ∧ activity.caller? = some wait.call ∧
      activity.request? = some wait.key := by
  cases awaits with
  | @offered o call span accepted purpose =>
      obtain ⟨message, purpose⟩ := o
      cases purpose
      exact ⟨_, _, rfl, rfl, rfl⟩
  | waiting => exact ⟨_, _, rfl, rfl, rfl⟩

/-! ### What a move does to the callers -/

/-- What a move does to the callers that stand in the table, and to the one it leaves waiting. There
are few ways to do this, one for each of the lemmas below, and every deed is one of them. -/
structure Entry.Attends (e : Entry) : Prop where
  minds : ∀ call, e.turn.caller? ≠ some call → e.before.awaited.Minds e.after.awaited call
  released : ∀ w ∈ e.before.awaited.waiting, e.restarts w.1.handle = true →
    e.after.awaited.HasMail w.2
  stays : ∀ w ∈ e.after.awaited.waiting,
    w ∈ e.before.awaited.waiting ∧ e.restarts w.1.handle = false ∨
      w.1 ∈ e.begun ∧ w.2 = e.before.awaited.calls ∧
        e.after.awaited.calls = e.before.awaited.calls + 1
  calls : e.before.awaited.calls ≤ e.after.awaited.calls
  leaves : ∀ activity key, e.progress = .waiting activity → activity.request? = some key →
    (key ∈ e.begun ∧ ∀ call, activity.caller? = some call →
      call = e.before.awaited.calls ∧ (key, call) ∈ e.after.awaited.waiting ∧
        e.after.awaited.calls = e.before.awaited.calls + 1) ∨
    (e.after = e.before ∧ ∃ former reply, e.turn = .goesOn former reply ∧
      former.request? = some key ∧ activity.caller? = former.caller?)

/-- Nothing plain is about a request that was begun. -/
theorem Progress.Plain.request? {p : Progress} (plain : p.Plain) {activity : Activity}
    (waiting : p = .waiting activity) : activity.request? = none := by
  cases plain with
  | finished => cases waiting
  | @offering o other =>
      cases waiting
      obtain ⟨message, purpose⟩ := o
      cases purpose with
      | request caller => exact absurd rfl (other caller)
      | _ => rfl
  | notifying | announcing =>
      cases waiting
      rfl

/-- A scan is about no request of its own. -/
theorem Progress.Tells.request? {p : Progress} {d : Directory} {count : Nat}
    {lapsed : List Lapsed} (tells : p.Tells d count lapsed) {activity : Activity}
    (waiting : p = .waiting activity) : activity.request? = none := by
  cases tells with
  | done => cases waiting
  | next =>
      cases waiting
      rfl

namespace Entry

variable {e : Entry}

/-- A move that touches neither the table nor the slots, and leaves no caller waiting. -/
theorem attends_of_same (awaited : e.after.awaited = e.before.awaited)
    (steady : ∀ h, e.restarts h = false)
    (nobody : ∀ activity, e.progress = .waiting activity → activity.request? = none) :
    e.Attends where
  minds := by
    intro call other
    rw [awaited]
    exact .refl _ call
  released := by
    intro w mem gone
    rw [steady] at gone
    cases gone
  stays := by
    intro w mem
    rw [awaited] at mem
    exact .inl ⟨mem, steady _⟩
  calls := by
    exact Nat.le_of_eq (congrArg Awaited.calls awaited.symm)
  leaves := by
    intro activity key progress request
    rw [nobody activity progress] at request
    cases request

/-- A move that only takes callers out of the table, and leaves none waiting. -/
theorem attends_of_fewer
    (minds : ∀ call, e.turn.caller? ≠ some call → e.before.awaited.Minds e.after.awaited call)
    (fewer : ∀ w ∈ e.after.awaited.waiting, w ∈ e.before.awaited.waiting)
    (calls : e.after.awaited.calls = e.before.awaited.calls)
    (steady : ∀ h, e.restarts h = false)
    (nobody : ∀ activity, e.progress = .waiting activity → activity.request? = none) :
    e.Attends where
  minds := minds
  released := by
    intro w mem gone
    rw [steady] at gone
    cases gone
  stays := fun w mem => .inl ⟨fewer w mem, steady _⟩
  calls := Nat.le_of_eq calls.symm
  leaves := by
    intro activity key progress request
    rw [nobody activity progress] at request
    cases request

/-- A move that forgets slots with their callers. -/
theorem attends_of_forgetting (leaves : RequestKey → Bool)
    (awaited : e.after.awaited = e.before.awaited.releaseWhere leaves)
    (gone : ∀ key : RequestKey, e.restarts key.handle = leaves key)
    (nobody : ∀ activity, e.progress = .waiting activity → activity.request? = none) :
    e.Attends where
  minds := by
    intro call other
    rw [awaited]
    exact Awaited.minds_releaseWhere _ leaves call
  released := by
    intro w mem restarts
    rw [gone] at restarts
    rw [awaited]
    exact Awaited.hasMail_releaseWhere mem restarts
  stays := by
    intro w mem
    rw [awaited, Awaited.mem_waiting_releaseWhere] at mem
    exact .inl ⟨mem.1, by rw [gone]; exact mem.2⟩
  calls := by
    rw [awaited]
    exact Nat.le_refl e.before.awaited.calls
  leaves := by
    intro activity key progress request
    rw [nobody activity progress] at request
    cases request

/-- A move that begins a request for which nobody is to wait. -/
theorem attends_of_begun {key : RequestKey} {message : Message} (begun : e.begun = [key])
    (awaited : e.after.awaited = e.before.awaited) (steady : ∀ h, e.restarts h = false)
    (progress : e.progress = .waiting (.offering ⟨message, .request none⟩))
    (same : message.header.key = key) : e.Attends where
  minds := by
    intro call other
    rw [awaited]
    exact .refl _ call
  released := by
    intro w mem gone
    rw [steady] at gone
    cases gone
  stays := by
    intro w mem
    rw [awaited] at mem
    exact .inl ⟨mem, steady _⟩
  calls := by
    exact Nat.le_of_eq (congrArg Awaited.calls awaited.symm)
  leaves := by
    intro activity other waiting request
    rw [progress] at waiting
    cases waiting
    obtain rfl : message.header.key = other := Option.some.inj request
    rw [begun, same]
    exact .inl ⟨List.mem_singleton_self _, nofun⟩

/-- A move that begins a request and lets a new caller wait for it. -/
theorem attends_of_awaited {key : RequestKey} {message : Message} {span : Span}
    (begun : e.begun = [key]) (awaited : e.after.awaited = (e.before.awaited.enlist key).2)
    (steady : ∀ h, e.restarts h = false)
    (progress : e.progress =
      .waiting (.offering ⟨message, .request (some (e.before.awaited.calls, span))⟩))
    (same : message.header.key = key) : e.Attends where
  minds := by
    intro call other
    rw [awaited]
    exact Awaited.minds_enlist _ key call
  released := by
    intro w mem gone
    rw [steady] at gone
    cases gone
  stays := by
    intro w mem
    rw [awaited] at mem ⊢
    rcases List.mem_append.mp mem with mem | mem
    · exact .inl ⟨Awaited.mem_waiting_of_release _ key mem, steady _⟩
    · rw [List.mem_singleton.mp mem, begun]
      exact .inr ⟨List.mem_singleton_self _, rfl, rfl⟩
  calls := by
    rw [awaited]
    exact Nat.le_succ _
  leaves := by
    intro activity other waiting request
    rw [progress] at waiting
    cases waiting
    obtain rfl : message.header.key = other := Option.some.inj request
    rw [begun, same, awaited]
    refine .inl ⟨List.mem_singleton_self _, ?_⟩
    rintro call ⟨⟩
    exact ⟨rfl, List.mem_append_right _ (List.mem_singleton_self _), rfl⟩

/-- A move of a caller that goes on waiting. -/
theorem attends_of_waiting {wait later : ReplyWait} (waiting : e.turn.AwaitsReply e.now wait)
    (unchanged : e.after = e.before) (progress : e.progress = .waiting (.blocked (.reply later)))
    (call : later.call = wait.call) (key : later.key = wait.key) : e.Attends where
  minds := by
    intro call other
    rw [unchanged]
    exact .refl _ call
  released := by
    intro w mem gone
    rw [restarts_of_routine waiting.routine] at gone
    cases gone
  stays := by
    intro w mem
    rw [unchanged] at mem
    exact .inl ⟨mem, restarts_of_routine waiting.routine _⟩
  calls := by
    exact Nat.le_of_eq (congrArg (·.awaited.calls) unchanged.symm)
  leaves := by
    intro activity other left request
    rw [progress] at left
    cases left
    obtain rfl : later.key = other := Option.some.inj request
    obtain ⟨former, reply, turn, caller, request⟩ := waiting.activity
    refine .inr ⟨unchanged, former, reply, turn, ?_, ?_⟩
    · rw [request, key]
    · rw [caller, ← call]
      rfl

end Entry

/-- Whatever a move is, it leaves callers that it does not concern alone. -/
theorem Entry.attends {e : Entry} (sound : e.Sound)
    (deed : Deed e.before e.now e.turn (e.after, e.progress)) : e.Attends := by
  obtain ⟨operation, found, turn, now, before, after, progress⟩ := e
  have wf := sound.before
  simp only at wf deed
  have finished {outcome : Outcome} (activity : Activity)
      (progress : Progress.finished outcome = .waiting activity) : activity.request? = none := by
    cases progress
  -- A caller that ends leaves no mail behind, and may take its request out of the table.
  have forgets {wait : ReplyWait} {turn : Turn} (waiting : turn.AwaitsReply now wait)
      (a : Awaited) (minds : ∀ call, before.awaited.Minds a call) (call : CallId)
      (other : turn.caller? ≠ some call) : before.awaited.Minds (a.forget wait.call) call := by
    obtain ⟨activity, reply, rfl, caller, -⟩ := waiting.activity
    refine (minds call).trans (Awaited.minds_forget a ?_)
    rintro rfl
    exact other caller
  -- Sorted by what they do to the table: nothing, begin a request, enter a caller, or take some
  -- out.
  cases deed with
  | idle idle =>
      exact Entry.attends_of_same rfl (Entry.restarts_of_idle idle) fun _ => idle.plain.request?
  | enrolled | enrolledAt => exact Entry.attends_of_same rfl (fun h => rfl) finished
  | @dismissed handle =>
      refine Entry.attends_of_forgetting (·.handle == handle) rfl (fun key => ?_) finished
      exact Bool.beq_comm
  | reset plain =>
      exact Entry.attends_of_forgetting (fun _ => true) rfl (fun key => rfl)
        fun _ => plain.request?
  | slotWait places =>
      refine Entry.attends_of_same rfl (Entry.restarts_of_routine places.routine) ?_
      rintro activity ⟨⟩
      rfl
  | sent places idle =>
      exact Entry.attends_of_begun (Ledger.begun_withRequest wf idle _ _) rfl
        (Entry.restarts_of_routine places.routine) rfl rfl
  | sentAwaiting places idle =>
      exact Entry.attends_of_awaited (Ledger.begun_withRequest wf idle _ _) rfl
        (Entry.restarts_of_routine places.routine) rfl rfl
  | waits waiting mail call key => exact Entry.attends_of_waiting waiting rfl rfl call key
  | mailed waiting =>
      exact Entry.attends_of_fewer (forgets waiting _ fun call => .refl _ call)
        (fun w mem => mem) rfl (Entry.restarts_of_routine waiting.routine) finished
  | overdue waiting | gaveUp waiting =>
      exact Entry.attends_of_fewer (forgets waiting _ (Awaited.minds_release _ _))
        (fun w => Awaited.mem_waiting_of_release _ _) rfl
        (Entry.restarts_of_routine waiting.routine) finished
  | tookBack =>
      exact Entry.attends_of_fewer (fun call _ => Awaited.minds_release _ _ call)
        (fun w => Awaited.mem_waiting_of_release _ _) rfl
        (Entry.restarts_of_routine rfl) finished
  | tookBackAwaiting purpose =>
      exact Entry.attends_of_fewer
        (forgets (.offered purpose) _ (Awaited.minds_release _ _))
        (fun w => Awaited.mem_waiting_of_release _ _) rfl
        (Entry.restarts_of_routine rfl) finished
  | received | echoed =>
      refine Entry.attends_of_same rfl (fun h => rfl) ?_
      rintro activity ⟨⟩
      rfl
  | answered arrives request plain =>
      exact Entry.attends_of_same rfl (fun h => rfl) fun _ => plain.request?
  | closed closes plain =>
      exact Entry.attends_of_same rfl (Entry.restarts_of_routine closes.routine)
        fun _ => plain.request?
  | delivered =>
      refine Entry.attends_of_same rfl (fun h => rfl) ?_
      rintro activity ⟨⟩
      rfl
  | absorbed | woke =>
      exact Entry.attends_of_fewer (fun call _ => Awaited.minds_post _ _ call)
        (fun w => Awaited.mem_waiting_of_post) rfl (fun h => rfl) finished
  | scanned tells =>
      exact Entry.attends_of_fewer (fun call _ => Awaited.minds_postAll _ _ call)
        (fun w => Awaited.mem_waiting_of_postAll) (Awaited.calls_postAll _ _) (fun h => rfl)
        fun _ => tells.request?
  | told tells =>
      exact Entry.attends_of_fewer
        (fun call _ => (Awaited.minds_post _ _ call).trans (Awaited.minds_postAll _ _ call))
        (fun w mem => Awaited.mem_waiting_of_post (Awaited.mem_waiting_of_postAll mem))
        (Awaited.calls_postAll _ _) (fun h => rfl) fun _ => tells.request?

/-! ### The callers of a session -/

/-- Every caller under way is attended to: it waits under the key of its own request, in the table
or with mail in its box, and the slot remembers the request as long as it stands in the table. -/
structure Session.Attended (s : Session) : Prop where
  old : ∀ task ∈ s.tasks, ∀ call, task.activity.caller? = some call →
    call < s.exchange.awaited.calls
  apart : ∀ task ∈ s.tasks, ∀ task' ∈ s.tasks, ∀ call, task.activity.caller? = some call →
    task'.activity.caller? = some call → task.id = task'.id
  own : ∀ task ∈ s.tasks, ∀ key, task.activity.request? = some key →
    (task.id, key) ∈ s.history.begun
  standing : ∀ task ∈ s.tasks, ∀ key call, task.activity.request? = some key →
    task.activity.caller? = some call →
      s.exchange.awaited.HasMail call ∨
        (key, call) ∈ s.exchange.awaited.waiting ∧
          (task.id, key) ∈ s.history.sent key.handle key.command
  awaited : ∀ w ∈ s.exchange.awaited.waiting,
    ∃ id, (id, w.1) ∈ s.history.sent w.1.handle w.1.command

namespace Session

variable {s s' : Session} {e : Entry}

theorem Moved.attends (moved : s.Moved s' e) (accounted : s.Accounted) : e.Attends :=
  Entry.attends (moved.sound accounted.wellFormed) moved.deed

/-- Whose activity it is that a move continues. -/
theorem Moved.former (moved : s.Moved s' e) {former : Activity} {reply : Reply}
    (turn : e.turn = .goesOn former reply) :
    ∃ task ∈ s.tasks, task.id = e.operation ∧ task.found = e.found ∧ task.activity = former := by
  cases moved.mover with
  | starts begins =>
      rw [begins] at turn
      cases turn
  | @resumes task _ mem goesOn operation found =>
      rw [goesOn] at turn
      exact ⟨task, mem, operation.symm, found.symm, (Turn.goesOn.inj turn).1⟩

theorem Moved.mem_sent (moved : s.Moved s' e) {h : Handle} {c : Command}
    {request : OperationId × RequestKey} (steady : e.restarts h = false)
    (mem : request ∈ s.history.sent h c) : request ∈ s'.history.sent h c := by
  rw [moved.history, History.sent, steady]
  exact List.mem_append_right _ mem

/-- A request that begins is the latest of its slot. -/
theorem Accounted.mem_sent_of_begun (accounted : s.Accounted) (moved : s.Moved s' e)
    {key : RequestKey} (begun : key ∈ e.begun) :
    (e.operation, key) ∈ s'.history.sent key.handle key.command := by
  have sound := moved.sound accounted.wellFormed
  rcases accounted.sent_cases moved key.handle key.command with
    ⟨gone, -⟩ | ⟨-, apart, -⟩ | ⟨-, one, more⟩
  · have pending := (sound.mem_begun.mp begun).1
    rw [sound.not_awaits_of_restarts gone] at pending
    cases pending
  · exact absurd ⟨rfl, rfl⟩ (apart key begun)
  · rw [one, List.mem_singleton] at begun
    rw [← begun] at more
    rw [more]
    exact List.mem_cons_self

namespace Attended

/-- The caller that a move leaves waiting is a new one, or goes on waiting as before. -/
theorem left_cases (accounted : s.Accounted) (moved : s.Moved s' e) {task : Task}
    (mine : task ∈ e.tasks) {key : RequestKey} (request : task.activity.request? = some key) :
    (key ∈ e.begun ∧ ∀ call, task.activity.caller? = some call →
      call = s.exchange.awaited.calls ∧ (key, call) ∈ s'.exchange.awaited.waiting ∧
        s'.exchange.awaited.calls = s.exchange.awaited.calls + 1) ∨
    (s'.exchange = s.exchange ∧ (∀ h, e.restarts h = false) ∧
      ∃ former ∈ s.tasks, former.id = e.operation ∧ former.activity.request? = some key ∧
        task.activity.caller? = former.activity.caller?) := by
  have progress := (moved.task_id mine).2.2
  rw [moved.after, ← moved.before]
  rcases (moved.attends accounted).leaves _ key progress request with
    begun | ⟨unchanged, former, reply, turn, request, caller⟩
  · exact .inl begun
  · obtain ⟨task', mem, id, -, rfl⟩ := moved.former turn
    refine .inr ⟨unchanged, fun h => ?_, task', mem, id, request, caller⟩
    simp [Entry.restarts, turn]

/-- Callers are numbered before their operations wait. -/
theorem old_step (attended : s.Attended) (accounted : s.Accounted) (orderly : s.Orderly)
    (moved : s.Moved s' e) (task : Task) (mem : task ∈ s'.tasks) (call : CallId)
    (caller : task.activity.caller? = some call) : call < s'.exchange.awaited.calls := by
  rcases moved.task_cases orderly mem with mine | ⟨other, -⟩
  · obtain ⟨key, request⟩ := Activity.request?_of_caller? caller
    rcases left_cases accounted moved mine request with
      ⟨-, new⟩ | ⟨unchanged, -, former, mem, -, -, same⟩
    · obtain ⟨same, -, calls⟩ := new call caller
      rw [same, calls]
      exact Nat.lt_succ_self _
    · rw [unchanged]
      exact attended.old former mem call (same.symm.trans caller)
  · have more := (moved.attends accounted).calls
    rw [moved.before, ← moved.after] at more
    exact Nat.lt_of_lt_of_le (attended.old task other call caller) more

/-- The caller of a move is none of another operation under way. -/
theorem ne_of_mine (attended : s.Attended) (accounted : s.Accounted) (moved : s.Moved s' e)
    {task other : Task} (mine : task ∈ e.tasks) (under : other ∈ s.tasks)
    (apart : other.id ≠ e.operation) {call : CallId}
    (caller : task.activity.caller? = some call) : other.activity.caller? ≠ some call := by
  intro same
  obtain ⟨key, request⟩ := Activity.request?_of_caller? caller
  rcases left_cases accounted moved mine request with
    ⟨-, new⟩ | ⟨-, -, former, mem, id, -, same'⟩
  · exact Nat.ne_of_lt (attended.old other under call same) (new call caller).1
  · have own := attended.apart other under former mem call same (same'.symm.trans caller)
    exact apart (own.trans id)

/-- No two operations wait as the same caller. -/
theorem apart_step (attended : s.Attended) (accounted : s.Accounted) (orderly : s.Orderly)
    (moved : s.Moved s' e) (task : Task) (mem : task ∈ s'.tasks) (task' : Task)
    (mem' : task' ∈ s'.tasks) (call : CallId) (caller : task.activity.caller? = some call)
    (caller' : task'.activity.caller? = some call) : task.id = task'.id := by
  rcases moved.task_cases orderly mem with mine | ⟨other, apart⟩
  · rcases moved.task_cases orderly mem' with mine' | ⟨other', apart'⟩
    · rw [(moved.task_id mine).1, (moved.task_id mine').1]
    · exact absurd caller' (attended.ne_of_mine accounted moved mine other' apart' caller)
  · rcases moved.task_cases orderly mem' with mine' | ⟨other', apart'⟩
    · exact absurd caller (attended.ne_of_mine accounted moved mine' other apart caller')
    · exact attended.apart task other task' other' call caller caller'

/-- The request that an operation waits for is one that it has begun. -/
theorem own_step (attended : s.Attended) (accounted : s.Accounted) (orderly : s.Orderly)
    (moved : s.Moved s' e) (task : Task) (mem : task ∈ s'.tasks) (key : RequestKey)
    (request : task.activity.request? = some key) : (task.id, key) ∈ s'.history.begun := by
  rw [moved.history]
  rcases moved.task_cases orderly mem with mine | ⟨other, -⟩
  · rw [(moved.task_id mine).1]
    rcases left_cases accounted moved mine request with
      ⟨begun, -⟩ | ⟨-, -, former, mem, id, request, -⟩
    · exact List.mem_append_left _ (List.mem_map.mpr ⟨key, begun, rfl⟩)
    · rw [← id]
      exact List.mem_append_right _ (attended.own former mem key request)
  · exact List.mem_append_right _ (attended.own task other key request)

/-- A caller waits in the table until there is mail for it, and as long as it does its slot
remembers the request. -/
theorem standing_step (attended : s.Attended) (accounted : s.Accounted) (orderly : s.Orderly)
    (moved : s.Moved s' e) (task : Task) (mem : task ∈ s'.tasks) (key : RequestKey)
    (call : CallId) (request : task.activity.request? = some key)
    (caller : task.activity.caller? = some call) :
    s'.exchange.awaited.HasMail call ∨
      (key, call) ∈ s'.exchange.awaited.waiting ∧
        (task.id, key) ∈ s'.history.sent key.handle key.command := by
  rcases moved.task_cases orderly mem with mine | ⟨other, apart⟩
  · rw [(moved.task_id mine).1]
    rcases left_cases accounted moved mine request with
      ⟨begun, new⟩ | ⟨unchanged, steady, former, mem, id, request, same⟩
    · exact .inr ⟨(new call caller).2.1, accounted.mem_sent_of_begun moved begun⟩
    · rw [unchanged, ← id]
      refine (attended.standing former mem key call request (same.symm.trans caller)).imp_right ?_
      exact fun ⟨waiting, sent⟩ => ⟨waiting, moved.mem_sent (steady _) sent⟩
  · have attends := moved.attends accounted
    rw [moved.after]
    have minds : e.before.awaited.Minds e.after.awaited call := by
      refine attends.minds call ?_
      intro mover
      cases turn : e.turn with
      | begins operation =>
          rw [turn] at mover
          cases mover
      | goesOn former reply =>
          rw [turn] at mover
          obtain ⟨task', mem', id, -, rfl⟩ := moved.former turn
          exact apart ((attended.apart task other task' mem' call caller mover).trans id)
    rw [moved.before] at minds
    rcases attended.standing task other key call request caller with mail | ⟨waiting, sent⟩
    · exact .inl (minds.mail mail)
    · cases gone : e.restarts key.handle with
      | true =>
          rw [← moved.before] at waiting
          exact .inl (attends.released (key, call) waiting gone)
      | false =>
          rcases minds.waiting key waiting with waiting | mail
          · exact .inr ⟨waiting, moved.mem_sent gone sent⟩
          · exact .inl mail

/-- Everyone in the table waits for a request that the slot remembers. -/
theorem awaited_step (attended : s.Attended) (accounted : s.Accounted) (moved : s.Moved s' e)
    (w : RequestKey × CallId) (mem : w ∈ s'.exchange.awaited.waiting) :
    ∃ id, (id, w.1) ∈ s'.history.sent w.1.handle w.1.command := by
  rw [moved.after] at mem
  rcases (moved.attends accounted).stays w mem with ⟨mem, steady⟩ | ⟨begun, -⟩
  · rw [moved.before] at mem
    obtain ⟨id, sent⟩ := attended.awaited w mem
    exact ⟨id, moved.mem_sent steady sent⟩
  · exact ⟨e.operation, accounted.mem_sent_of_begun moved begun⟩

theorem step (attended : s.Attended) (accounted : s.Accounted) (orderly : s.Orderly)
    (moved : s.Moved s' e) : s'.Attended where
  old := attended.old_step accounted orderly moved
  apart := attended.apart_step accounted orderly moved
  own := attended.own_step accounted orderly moved
  standing := attended.standing_step accounted orderly moved
  awaited := attended.awaited_step accounted moved

end Attended

/-- Callers are looked after in every run. -/
theorem Reachable.attended {settings : Settings} (reached : Reachable settings s) :
    s.Attended := by
  have empty := (Exchange.ledger_ofSettings settings).2
  refine reached.holds ?_ fun before moved attended =>
    attended.step before.accounted before.orderly moved
  exact
    { old := by
        intro task mem
        cases mem
      apart := by
        intro task mem
        cases mem
      own := by
        intro task mem
        cases mem
      standing := by
        intro task mem
        cases mem
      awaited := by
        intro w mem
        rw [Session.ofSettings, empty] at mem
        cases mem }

end Session

/-! ### The numbers of callers -/

/-- Callers and mail bear numbers that were given out. -/
structure Awaited.Numbered (a : Awaited) : Prop where
  waiting : ∀ w ∈ a.waiting, w.2 < a.calls
  mail : ∀ m ∈ a.mail, m.1 < a.calls

namespace Awaited.Numbered

variable {a : Awaited}

theorem releaseWhere (numbered : a.Numbered) (leaves : RequestKey → Bool) :
    (a.releaseWhere leaves).Numbered where
  waiting := fun w mem => numbered.waiting w (List.mem_filter.mp mem).1
  mail := by
    intro m mem
    rcases List.mem_append.mp mem with mem | mem
    · exact numbered.mail m mem
    · obtain ⟨w, stood, rfl⟩ := List.mem_map.mp mem
      exact numbered.waiting w (List.mem_filter.mp stood).1

theorem release (numbered : a.Numbered) (key : RequestKey) : (a.release key).Numbered :=
  numbered.releaseWhere (· == key)

theorem post (numbered : a.Numbered) (message : Message) : (a.post message).Numbered where
  waiting := fun w mem => numbered.waiting w (List.mem_filter.mp mem).1
  mail := by
    intro m mem
    rcases List.mem_append.mp mem with mem | mem
    · exact numbered.mail m mem
    · obtain ⟨w, stood, rfl⟩ := List.mem_map.mp mem
      exact numbered.waiting w (List.mem_filter.mp stood).1

theorem postAll (numbered : a.Numbered) (messages : List Message) :
    (a.postAll messages).Numbered := by
  induction messages generalizing a with
  | nil => exact numbered
  | cons message rest ih => exact ih (numbered.post message)

theorem forget (numbered : a.Numbered) (call : CallId) : (a.forget call).Numbered where
  waiting := numbered.waiting
  mail := fun m mem => numbered.mail m (List.mem_filter.mp mem).1

theorem enlist (numbered : a.Numbered) (key : RequestKey) : (a.enlist key).2.Numbered where
  waiting := by
    intro w mem
    rcases List.mem_append.mp mem with mem | mem
    · exact Nat.lt_succ_of_lt ((numbered.release key).waiting w mem)
    · obtain rfl := List.mem_singleton.mp mem
      exact Nat.lt_succ_self _
  mail := fun m mem => Nat.lt_succ_of_lt ((numbered.release key).mail m mem)

/-- Nothing has come yet for a new caller. -/
theorem mailFor_enlist (numbered : a.Numbered) (key : RequestKey) :
    (a.enlist key).2.mailFor a.calls = .nothing := by
  rw [mailFor_eq_nothing_iff]
  rintro ⟨m, mem, same⟩
  exact Nat.ne_of_lt ((numbered.release key).mail m mem) same

/-- A response goes to the new caller that waits for it. -/
theorem mailFor_post_enlist (numbered : a.Numbered) (message : Message) :
    ((a.enlist message.header.key).2.post message).mailFor a.calls = .delivered message := by
  have others : (a.release message.header.key).waiting.filter
      (fun w => w.1 == message.header.key) = [] := by
    refine List.filter_eq_nil_iff.mpr fun w mem => ?_
    have apart := (mem_waiting_releaseWhere.mp mem).2
    simpa using apart
  have unmailed : (a.release message.header.key).mail.find? (fun m => m.1 == a.calls) = none := by
    refine List.find?_eq_none.mpr fun m mem => ?_
    have old : m.1 < a.calls := (numbered.release message.header.key).mail m mem
    simpa using Nat.ne_of_lt old
  have mail : ((a.enlist message.header.key).2.post message).mail =
      (a.release message.header.key).mail ++ [(a.calls, some message)] := by
    simp [Awaited.post, Awaited.enlist, others]
  rw [mailFor, mail, List.find?_append, unmailed]
  simp

end Awaited.Numbered

namespace Session

variable {s s' : Session} {e : Entry}

/-- Every move numbers callers as they come. -/
theorem Moved.numbered (moved : s.Moved s' e) (numbered : s.exchange.awaited.Numbered) :
    s'.exchange.awaited.Numbered := by
  have deed := moved.deed
  rw [moved.after]
  rw [← moved.before] at numbered
  obtain ⟨operation, found, turn, now, before, after, progress⟩ := e
  simp only at deed numbered ⊢
  cases deed with
  | idle | enrolled | enrolledAt | slotWait | sent | waits | received | answered | echoed | closed
  | delivered => exact numbered
  | @dismissed handle => exact numbered.releaseWhere (·.handle == handle)
  | reset => exact numbered.releaseWhere fun _ => true
  | sentAwaiting => exact numbered.enlist _
  | mailed => exact numbered.forget _
  | gaveUp | overdue | tookBackAwaiting => exact (numbered.release _).forget _
  | tookBack => exact numbered.release _
  | absorbed | woke => exact numbered.post _
  | scanned => exact numbered.postAll _
  | told => exact (numbered.post _).postAll _

/-- In every run the numbers of callers lie below the next one. -/
theorem Reachable.numbered {settings : Settings} (reached : Reachable settings s) :
    s.exchange.awaited.Numbered := by
  have empty := (Exchange.ledger_ofSettings settings).2
  refine reached.holds ?_ fun _ moved numbered => moved.numbered numbered
  rw [Session.ofSettings, empty]
  exact ⟨fun w mem => (List.not_mem_nil mem).elim, fun m mem => (List.not_mem_nil mem).elim⟩

end Session

end HubRelay
