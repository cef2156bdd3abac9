import HubRelay.Proofs.Completion
import HubRelay.Proofs.Session.Mail
import HubRelay.Proofs.Session.Registrations

/-!
How responses get from the operation that ended a request to the caller that waits for it.

An operation that ends a request by a response or for its time being over wakes the caller only
after the endpoint has answered, perhaps much later. `Session.Reachable.handedOver` says that it
does so once for each of these requests, unless a scan finds nobody to tell. A response that is
handed over was brought to an endpoint before (`Session.Reachable.call_of_posts`).
-/

namespace HubRelay

/-- The requests whose callers an operation has yet to wake. -/
def Activity.owed : Activity → List RequestKey
  | .serving ⟨_, m, .wakeCaller⟩ => [m.header.key]
  | .serving ⟨_, m, .nextLapsed rest _⟩ => m.header.key :: rest.map Lapsed.key
  | _ => []

def Progress.owed : Progress → List RequestKey
  | .finished _ => []
  | .waiting activity => activity.owed

/-- The lapsed requests of which a scan finds nobody to tell. -/
def missed (visits : List (Lapsed × Option Registration)) : List RequestKey :=
  (visits.filter (·.2.isNone)).map (·.1.key)

/-- The requests that a move is through with: their callers are woken, or nobody is. For an endpoint
of the program this is when it has returned, so not in the move that called it. -/
def Entry.dealt (e : Entry) : List RequestKey := e.posts.map (·.header.key) ++ missed e.visits

/-! ### One move -/

theorem Progress.Plain.owed {p : Progress} (plain : p.Plain) : p.owed = [] := by
  cases plain <;> rfl

/-- Of the requests that a scan goes past, it wakes the callers or finds nobody to tell. -/
theorem Directory.perm_passed {d : Directory} {front : List Lapsed}
    (passes : ∀ l ∈ front, d.passes l = true) :
    (front.map Lapsed.key).Perm
      ((standingReplies (d.visits front)).map (·.header.key) ++ missed (d.visits front)) := by
  induction front with
  | nil => exact .refl _
  | cons l front ih =>
      obtain ⟨first, others⟩ := List.forall_mem_cons.mp passes
      have later := (ih others).cons l.key
      rw [Directory.visits, if_pos first, List.map_cons]
      cases found : d.find? l.handle with
      | none => exact later.trans List.perm_middle.symm
      | some r =>
          have resident : r.endpoint.isResident = true :=
            (Directory.passes_of_find? found).symm.trans first
          have replies : standingReplies ((l, some r) :: d.visits front) =
              r.timeoutMessage l :: standingReplies (d.visits front) := by
            simp [standingReplies, resident]
          rw [replies]
          exact later

/-- A scan is through with the requests up to the first endpoint that it has to call. -/
theorem Progress.Tells.perm_owed {p : Progress} {d : Directory} {count : Nat}
    {lapsed : List Lapsed} (tells : p.Tells d count lapsed) :
    (lapsed.map Lapsed.key).Perm
      ((standingReplies (d.visits lapsed)).map (·.header.key) ++ missed (d.visits lapsed) ++
        p.owed) := by
  cases tells with
  | done all =>
      rw [Progress.owed, List.append_nil]
      exact Directory.perm_passed all
  | @next front rest l r split all found called =>
      -- The endpoint that is called neither answers at once nor is it missed.
      have replies (front : List (Lapsed × Option Registration)) :
          standingReplies (front ++ [(l, some r)]) = standingReplies front := by
        simp [standingReplies, called]
      have absent (front : List (Lapsed × Option Registration)) :
          missed (front ++ [(l, some r)]) = missed front := by
        simp [missed]
      rw [split, Directory.visits_append all, ← Directory.visits_of_passes all,
        Directory.visits_of_called found called, replies, absent, List.map_append]
      exact (Directory.perm_passed all).append_right _

/-- A turn in which responses may be handed over, or are taken up to be so later. -/
def Turn.hands : Turn → Bool
  | .begins (.receive _) | .begins (.scan _) | .goesOn (.serving ⟨_, _, .wakeCaller⟩) _
  | .goesOn (.serving ⟨_, _, .nextLapsed _ _⟩) _ => true
  | _ => false

namespace Entry

variable {e : Entry}

theorem leaving_owed (e : Entry) : e.leaving Activity.owed = e.progress.owed := by
  unfold leaving
  cases e.progress <;> rfl

theorem dealt_of_idle (quiet : e.turn.hands = false)
    (deed : Deed e.before e.now e.turn (e.after, e.progress)) :
    e.owing Activity.owed = [] ∧ e.dealt = [] ∧ e.progress.owed = [] := by
  have nothing : e.turn.mayTell = false ∧ e.owing Activity.owed = [] ∧ e.posts = [] := by
    unfold owing posts
    cases turn : e.turn with
    | begins operation =>
        rw [turn] at quiet
        cases operation <;> first | exact ⟨rfl, rfl, rfl⟩ | cases quiet
    | goesOn activity reply =>
        rw [turn] at quiet
        cases activity with
        | serving serving =>
            obtain ⟨r, m, sequel⟩ := serving
            cases sequel <;> first | exact ⟨rfl, rfl, rfl⟩ | cases quiet
        | _ => exact ⟨rfl, rfl, rfl⟩
  obtain ⟨silent, owing, posts⟩ := nothing
  refine ⟨owing, ?_, ?_⟩
  · rw [dealt, posts, visits_of_none (lapsed_of_silent silent)]
    rfl
  generalize e.turn = turn at deed quiet
  generalize e.progress = p at deed
  generalize e.after = after at deed
  cases deed with
  | idle idle => exact idle.plain.owed
  | reset plain | answered _ _ plain | closed _ plain => exact plain.owed
  | delivered | scanned | told => cases quiet
  | _ => rfl

theorem missed_of_received {frame : Bytes} (turn : e.turn = .begins (.receive frame)) :
    missed e.visits = [] := by
  rw [(due_of_receive turn).2]
  rfl

/-- The response that a frame brings is handed over at once, or when the endpoint has answered. -/
theorem dealt_of_received (deed : Deed e.before e.now e.turn (e.after, e.progress))
    {frame : Bytes} (turn : e.turn = .begins (.receive frame)) :
    (e.delivery.map fun brought => brought.2.header.key) = e.dealt ++ e.progress.owed := by
  rw [dealt, missed_of_received turn, List.append_nil]
  unfold posts
  rw [turn]
  cases progress : e.progress with
  | finished outcome => simp [Progress.owed, Function.comp_def]
  | waiting activity =>
      have undelivered (plain : e.progress.Plain) (none : e.delivery = []) :
          (e.delivery.map fun brought => brought.2.header.key) =
            [] ++ Progress.owed (.waiting activity) := by
        rw [none, ← progress, plain.owed]
        rfl
      rw [turn, progress] at deed
      generalize e.after = after at deed
      cases deed with
      | idle idle =>
          rw [← progress] at idle
          rw [← turn] at idle
          exact undelivered idle.plain (delivery_of_idle turn idle)
      | answered arrives request plain =>
          rw [← progress] at plain
          exact undelivered plain (delivery_of_request turn arrives.decoded request plain)
      | received | echoed | delivered =>
          unfold delivery
          rw [turn, progress]
          rfl
      | slotWait places | sent places | sentAwaiting places => cases places.routine
      | waits awaits => cases awaits
      | closed closes => cases closes

/-- Of what a move has before it, it is through with some and leaves the rest. Order does not
matter, hence the permutation. -/
theorem perm_dealt (sound : e.Sound)
    (turned : e.before.turn e.turn e.now = some (e.after, e.progress)) :
    (e.owing Activity.owed).Perm (e.dealt ++ e.leaving Activity.owed) := by
  have deed := deed_of_turn turned
  have wf := sound.before
  rw [leaving_owed]
  -- Four turns hand over responses: a frame, the start of a scan, and the return of either handler.
  cases hands : e.turn.hands with
  | false =>
      obtain ⟨owing, dealt, owed⟩ := dealt_of_idle hands deed
      rw [owing, dealt, owed]
      exact .refl _
  | true =>
      unfold Turn.hands at hands
      split at hands
      · rename_i frame turn
        refine .of_eq ?_
        rw [owing, turn, ← dealt_of_received deed turn]
        exact ended_of_received sound deed turn
      · rename_i limit turn
        rw [turn] at turned
        obtain ⟨p, tells, same⟩ := tellLapsed_eq
          { e.before with ledger := (e.before.ledger.takeLapsed limit).2 }
          (e.before.ledger.takeLapsed limit).1.length (e.before.ledger.takeLapsed limit).1
        replace same := (Option.some.inj turned).symm.trans same
        have ledger : e.after.ledger = (e.before.ledger.takeLapsed limit).2 :=
          congrArg (·.1.ledger) same
        have progress : e.progress = p := congrArg Prod.snd same
        rw [owing, turn]
        simp only [Turn.ending, Ending.isTold, if_true]
        rw [ended, ledger, Ledger.ended_takeLapsed wf, dealt, posts, visits_of_deed deed, lapsed,
          turn, progress]
        exact tells.perm_owed
      · rename_i r m reply turn
        rw [turn] at turned
        cases reply with
        | endpoint code =>
            have segment : e.before.responseServed m code = (e.after, e.progress) :=
              Option.some.inj turned
            have finished : e.progress = .finished (.disposed (.delivered code)) :=
              (congrArg Prod.snd segment).symm
            rw [owing, dealt, posts, visits_of_deed deed, lapsed, turn, finished]
            exact .refl _
        | _ => cases turned
      · rename_i r m rest count reply turn
        rw [turn] at turned
        cases reply with
        | endpoint code =>
            obtain ⟨p, tells, same⟩ := tellLapsed_eq
              { e.before with awaited := e.before.awaited.post m } count rest
            have progress : e.progress = p :=
              congrArg Prod.snd ((Option.some.inj turned).symm.trans same)
            rw [owing, dealt, posts, visits_of_deed deed, lapsed, turn, progress]
            exact tells.perm_owed.cons m.header.key
        | _ => cases turned
      · cases hands

end Entry

/-! ### Calls -/

/-- A response comes as the kind that the sender of the request expects. -/
theorem MessageType.eq_responseTo {type : MessageType} (response : type.messageClass = .response) :
    type = .responseTo type.receiver := by
  cases type <;> first | rfl | cases response

namespace Entry

variable {e : Entry} {r : Registration} {m : Message}

/-- What a scan hands over itself is the response for a request that it got to. -/
theorem visit_of_standingReplies {visits : List (Lapsed × Option Registration)}
    (mem : m ∈ standingReplies visits) : ∃ l r, (l, some r) ∈ visits ∧ m = r.timeoutMessage l := by
  obtain ⟨⟨l, found⟩, visited, stands⟩ := List.mem_filterMap.mp mem
  obtain ⟨r, resident, rfl⟩ := Option.map_eq_some_iff.mp stands
  obtain ⟨rfl, -⟩ := Option.filter_eq_some_iff.mp resident
  exact ⟨l, r, visited, rfl⟩

/-- What a move hands over it has brought to an endpoint itself, or the endpoint has answered. -/
theorem posts_cases (mem : m ∈ e.posts) :
    (∃ r, (m.header.key, some ⟨e.operation, r, m⟩) ∈ e.reached) ∨
      ∃ activity reply r, e.turn = .goesOn activity reply ∧ activity.told? = some (r, m) := by
  have visited (mem : m ∈ standingReplies e.visits) :
      ∃ r, (m.header.key, some ⟨e.operation, r, m⟩) ∈ e.reached := by
    obtain ⟨l, r, visited, rfl⟩ := visit_of_standingReplies mem
    exact ⟨r, List.mem_append_right _ (List.mem_map.mpr ⟨_, visited, rfl⟩)⟩
  unfold posts at mem
  split at mem
  · obtain ⟨⟨r, _⟩, brought, rfl⟩ := List.mem_map.mp mem
    exact .inl ⟨r, List.mem_append_left _ (List.mem_map.mpr ⟨_, brought, rfl⟩)⟩
  · exact .inl (visited mem)
  · rename_i turn
    obtain rfl := List.mem_singleton.mp mem
    exact .inr ⟨_, _, _, turn, rfl⟩
  · rename_i turn
    rcases List.mem_cons.mp mem with rfl | mem
    · exact .inr ⟨_, _, _, turn, rfl⟩
    · exact .inl (visited mem)
  · cases mem

/-- Endpoints are called with responses of the kind that they expect. -/
theorem type_of_reached (deed : Deed e.before e.now e.turn (e.after, e.progress))
    {key : RequestKey} {call : Call} (mem : (key, some call) ∈ e.reached) :
    call.message.header.type = .responseTo call.registration.descriptor.role := by
  rcases List.mem_append.mp mem with mem | mem
  · obtain ⟨⟨r, m⟩, brought, pair⟩ := List.mem_map.mp mem
    obtain ⟨-, same⟩ := Prod.mk.inj pair
    obtain rfl := Option.some.inj same
    obtain ⟨frame, -, arrives, response⟩ := arrives_of_delivery deed brought
    rw [arrives.role]
    exact MessageType.eq_responseTo response
  · obtain ⟨⟨l, found⟩, -, pair⟩ := List.mem_map.mp mem
    obtain ⟨r, -, rfl⟩ := Option.map_eq_some_iff.mp (Prod.mk.inj pair).2
    rfl

end Entry

/-! ### Runs -/

namespace Session

variable {s s' : Session} {e : Entry} {settings : Settings}

/-- Every request that an operation ended by a response or for its time being over, it is through
with, or it has yet to wake its caller. So the caller of an answered request is woken once, when the
endpoint has returned. -/
theorem Reachable.handedOver (reached : Reachable settings s) :
    s.Shares Entry.dealt Activity.owed := by
  induction reached with
  | fresh =>
      intro agent
      exact .refl _
  | step before stepped ih =>
      obtain ⟨e, moved⟩ := moved_of_step stepped
      exact moved.shares before.orderly
        (Entry.perm_dealt (moved.sound before.accounted.wellFormed) moved.turned) ih

/-- An endpoint that was called with a response is on record. -/
theorem Reachable.called_of_told (reached : Reachable settings s) :
    ∀ task ∈ s.tasks, ∀ r m, task.activity.told? = some (r, m) →
      (⟨task.id, r, m⟩ : Call) ∈ s.history.calls := by
  induction reached with
  | fresh =>
      intro task mem
      cases mem
  | step before stepped ih =>
      obtain ⟨e, moved⟩ := moved_of_step stepped
      intro task mem r m told
      rw [moved.history, History.calls]
      rcases moved.task_cases before.orderly mem with mine | ⟨other, -⟩
      · obtain ⟨id, -, progress⟩ := moved.task_id mine
        rw [id]
        have called :=
          Entry.reached_of_told moved.deed ((congrArg Progress.told? progress).trans told)
        exact List.mem_append_left _ (List.mem_filterMap.mpr ⟨_, called, rfl⟩)
      · exact List.mem_append_right _ (ih task other r m told)

/-- What is handed over was brought to an endpoint by the same operation. -/
theorem Moved.call_of_posts (moved : s.Moved s' e) (reached : Reachable settings s) {m : Message}
    (mem : m ∈ e.posts) : ∃ r, (⟨e.operation, r, m⟩ : Call) ∈ s'.history.calls := by
  rw [moved.history, History.calls]
  rcases Entry.posts_cases mem with ⟨r, now⟩ | ⟨activity, reply, r, turn, told⟩
  · exact ⟨r, List.mem_append_left _ (List.mem_filterMap.mpr ⟨_, now, rfl⟩)⟩
  · obtain ⟨task, under, id, -, rfl⟩ := moved.former turn
    rw [← id]
    exact ⟨r, List.mem_append_right _ (reached.called_of_told task under r m told)⟩

theorem Reachable.call_of_posts (reached : Reachable settings s) (mem : e ∈ s.history)
    {m : Message} (posts : m ∈ e.posts) : ∃ r, (⟨e.operation, r, m⟩ : Call) ∈ s.history.calls := by
  induction reached with
  | fresh => cases mem
  | step before stepped ih =>
      obtain ⟨n, moved⟩ := moved_of_step stepped
      rw [moved.history] at mem
      rcases List.mem_cons.mp mem with rfl | mem
      · exact moved.call_of_posts before posts
      · obtain ⟨r, called⟩ := ih mem
        refine ⟨r, ?_⟩
        rw [moved.history]
        exact List.mem_append_right _ called

theorem Reachable.type_of_call (reached : Reachable settings s) {call : Call}
    (mem : call ∈ s.history.calls) :
    call.message.header.type = .responseTo call.registration.descriptor.role := by
  obtain ⟨e, mem, -, told⟩ := History.mem_reached_iff.mp (History.mem_calls_iff.mp mem)
  exact Entry.type_of_reached (reached.deeds e mem) told

/-- An operation starts but once. -/
theorem Reachable.starts_once (reached : Reachable settings s) :
    ∀ e ∈ s.history, ∀ e' ∈ s.history, ∀ operation operation', e.turn = .begins operation →
      e'.turn = .begins operation' → e.operation = e'.operation → e = e' := by
  induction reached with
  | fresh =>
      intro e mem
      cases mem
  | @step s s' move before stepped ih =>
      obtain ⟨n, moved⟩ := moved_of_step stepped
      intro e mem e' mem' operation operation' begins begins' same
      -- A move that starts an operation bears a number that no entry has.
      have fresh {operation : Operation} (begins : n.turn = .begins operation) :
          ∀ entry ∈ s.history, entry.operation ≠ n.operation := by
        rcases moved.told_cases before.orderly with ⟨_, -, absent⟩ | ⟨_, _, goesOn, -⟩
        · exact absent
        · rw [begins] at goesOn
          cases goesOn
      rw [moved.history] at mem mem'
      rcases List.mem_cons.mp mem with here | old <;>
        rcases List.mem_cons.mp mem' with here' | old'
      · rw [here, here']
      · subst here
        exact absurd same.symm (fresh begins e' old')
      · subst here'
        exact absurd same (fresh begins' e old)
      · exact ih e old e' old' operation operation' begins begins' same

/-- The requests of which a scan tells have lapsed. -/
theorem Reachable.lapsed_of_scan (reached : Reachable settings s) {limit : Instant}
    (mem : e ∈ s.history) (scans : e.turn = .begins (.scan limit)) {x : Ended}
    (ended : x ∈ s.history.ended) (agent : x.agent = e.operation) (told : x.ending.isTold = true) :
    x.ending = .lapsed := by
  rcases Answered.isTold_iff.mp told with matched | lapsed
  · have cause := reached.caused x ended
    rw [matched] at cause
    cases cause with
    | matched turn =>
        have same := reached.starts_once _ (reached.moves_of_ended x ended).1 e mem _ _ turn scans
          agent
        rw [same, scans] at turn
        cases turn
  · exact lapsed

end Session

/-! ### Scans -/

/-- A turn of a scan. -/
inductive Turn.Scans : Turn → Prop where
  | begins {limit : Instant} : Scans (.begins (.scan limit))
  | goesOn {r : Registration} {m : Message} {rest : List Lapsed} {count : Nat} {reply : Reply} :
      Scans (.goesOn (.serving ⟨r, m, .nextLapsed rest count⟩) reply)

namespace Entry

variable {e : Entry}

/-- Only a scan has lapsed requests to tell of. -/
theorem scans_of_lapsed (deed : Deed e.before e.now e.turn (e.after, e.progress))
    {r : Registration} {m : Message} {rest : List Lapsed} {count : Nat}
    (progress : e.progress = .waiting (.serving ⟨r, m, .nextLapsed rest count⟩)) :
    e.turn.Scans := by
  rw [progress] at deed
  generalize e.turn = turn at deed
  generalize e.after = after at deed
  cases deed with
  | scanned => exact .begins
  | told => exact .goesOn
  | idle idle => cases idle.plain
  | reset plain | answered _ _ plain | closed _ plain => cases plain

/-- A scan hands over responses to the callers and does nothing else to them. -/
theorem awaited_of_scans (turned : e.before.turn e.turn e.now = some (e.after, e.progress))
    (scans : e.turn.Scans) : e.after.awaited = e.before.awaited.postAll e.posts := by
  have visits := visits_of_deed (deed_of_turn turned)
  unfold posts
  rw [visits]
  clear visits
  cases e with
  | mk operation found turn now before after progress =>
    cases scans with
    | @begins limit =>
        obtain ⟨p, -, same⟩ := tellLapsed_eq
          { before with ledger := (before.ledger.takeLapsed limit).2 }
          (before.ledger.takeLapsed limit).1.length (before.ledger.takeLapsed limit).1
        exact congrArg (·.1.awaited) ((Option.some.inj turned).symm.trans same)
    | @goesOn r m rest count reply =>
        cases reply with
        | endpoint code =>
            obtain ⟨p, -, same⟩ := tellLapsed_eq
              { before with awaited := before.awaited.post m } count rest
            exact congrArg (·.1.awaited) ((Option.some.inj turned).symm.trans same)
        | _ => cases turned

/-- A caller gets its number in this move. -/
structure Enlists (e : Entry) (call : CallId) : Prop where
  next : call = e.before.awaited.calls
  given : e.after.awaited.calls = e.before.awaited.calls + 1

end Entry

namespace Session

variable {s s' : Session} {e : Entry} {settings : Settings}

/-- A scan that is under way has begun. -/
structure Scanning (s : Session) : Prop where
  moves : ∀ e ∈ s.history, e.turn.Scans →
    ∃ e' ∈ s.history, e'.operation = e.operation ∧ ∃ limit, e'.turn = .begins (.scan limit)
  tasks : ∀ task ∈ s.tasks, ∀ r m rest count,
    task.activity = .serving ⟨r, m, .nextLapsed rest count⟩ →
      ∃ e' ∈ s.history, e'.operation = task.id ∧ ∃ limit, e'.turn = .begins (.scan limit)

theorem Moved.scanning (moved : s.Moved s' e) (orderly : s.Orderly) (scanning : s.Scanning) :
    s'.Scanning := by
  have mine (scans : e.turn.Scans) : ∃ e' ∈ s'.history, e'.operation = e.operation ∧
      ∃ limit, e'.turn = .begins (.scan limit) := by
    rw [moved.history]
    generalize turn : e.turn = t at scans
    cases scans with
    | begins => exact ⟨e, List.mem_cons_self, rfl, _, turn⟩
    | goesOn =>
        obtain ⟨task, under, id, -, activity⟩ := moved.former turn
        obtain ⟨e', mem, operation, began⟩ := scanning.tasks task under _ _ _ _ activity
        exact ⟨e', List.mem_cons_of_mem _ mem, operation.trans id, began⟩
  constructor
  · intro entry mem scans
    rw [moved.history] at mem
    rcases List.mem_cons.mp mem with rfl | mem
    · exact mine scans
    · obtain ⟨e', mem', began⟩ := scanning.moves entry mem scans
      exact ⟨e', moved.history ▸ List.mem_cons_of_mem _ mem', began⟩
  · intro task mem r m rest count activity
    rcases moved.task_cases orderly mem with left | ⟨other, -⟩
    · obtain ⟨id, -, progress⟩ := moved.task_id left
      rw [id]
      rw [activity] at progress
      exact mine (Entry.scans_of_lapsed moved.deed progress)
    · obtain ⟨e', mem', began⟩ := scanning.tasks task other r m rest count activity
      exact ⟨e', moved.history ▸ List.mem_cons_of_mem _ mem', began⟩

theorem Reachable.scanning (reached : Reachable settings s) : s.Scanning := by
  refine reached.holds ⟨?_, ?_⟩ fun before moved scanning =>
    moved.scanning before.orderly scanning
  · intro e mem
    cases mem
  · intro task mem
    cases mem

/-- The request of which a scan tells, or whose caller it wakes, is one that it found overdue. -/
theorem Reachable.lapsed_of_told (reached : Reachable settings s) (mem : e ∈ s.history)
    (scans : e.turn.Scans) {key : RequestKey} (told : key ∈ s.history.told e.operation) :
    ∃ x ∈ s.history.ended, x.agent = e.operation ∧ x.key = key ∧ x.ending = .lapsed := by
  obtain ⟨x, ended, same, agent, isTold⟩ := Answered.mem_told.mp told
  obtain ⟨e', mem', operation, limit, began⟩ := reached.scanning.moves e mem scans
  exact ⟨x, ended, agent, same,
    reached.lapsed_of_scan mem' began ended (agent.trans operation.symm) isTold⟩

/-- Every caller that waits was given its number in the move that began its request. -/
theorem Reachable.enlisted (reached : Reachable settings s) :
    ∀ w ∈ s.exchange.awaited.waiting, ∃ e ∈ s.history, e.Enlists w.2 ∧ w.1 ∈ e.begun ∧
      (e.operation, w.1) ∈ s.history.sent w.1.handle w.1.command := by
  induction reached with
  | @fresh =>
      intro w mem
      rw [Session.ofSettings, (Exchange.ledger_ofSettings settings).2] at mem
      cases mem
  | @step s s' move before stepped ih =>
      obtain ⟨n, moved⟩ := moved_of_step stepped
      intro w mem
      rw [moved.after] at mem
      rcases (moved.attends before.accounted).stays w mem with ⟨mem, steady⟩ | ⟨begun, call, calls⟩
      · rw [moved.before] at mem
        obtain ⟨e, known, enlists, begun, sent⟩ := ih w mem
        exact ⟨e, moved.history ▸ List.mem_cons_of_mem _ known, enlists, begun,
          moved.mem_sent steady sent⟩
      · exact ⟨n, moved.history ▸ List.mem_cons_self, ⟨call, calls⟩, begun,
          before.accounted.mem_sent_of_begun moved begun⟩

end Session

end HubRelay
