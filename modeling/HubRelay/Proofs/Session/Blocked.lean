import HubRelay.Proofs.Isolation
import HubRelay.Proofs.Session.Handover

/-!
A caller that sends a request and awaits the response, from the move in which the request begins.

As long as the slots of its endpoint are not forgotten, no other request bears the number of its own
until 256 more have begun on the slot. So whoever hands over a response under that number then has
ended this very request (`Session.Since.reports`), unless it was under way before the
request began.
-/

namespace HubRelay

/-! ### What has happened on a slot -/

namespace History

variable {e n : Entry} {recent past h : History} {handle : Handle} {command : Command}
  {key : RequestKey}

def begunOn (handle : Handle) (command : Command) (h : History) :
    List (OperationId × RequestKey) :=
  h.begun.filter fun request => request.2.handle == handle && request.2.command == command

/-- Whether the slots of a handle were forgotten. -/
def forgets (handle : Handle) (h : History) : Bool := h.any (·.restarts handle)

/-- The responses that were handed over under a key before the slots of its handle were
forgotten. -/
def handed (key : RequestKey) : History → List Message
  | [] => []
  | e :: past =>
      (if forgets key.handle past then [] else e.posts.filter (·.header.key == key)) ++
        handed key past

theorem forgets_cons : forgets handle (e :: past) = (e.restarts handle || forgets handle past) :=
  rfl

theorem steady_of_calm (calm : forgets handle recent = false) :
    ∀ e ∈ recent, e.restarts handle = false := by
  intro e mem
  simpa using List.any_eq_false.mp calm e mem

theorem calm_of_suffix (calm : forgets handle recent = false) (suffix : past <:+ recent) :
    forgets handle past = false := by
  apply List.any_eq_false.mpr
  intro e mem
  simp [steady_of_calm calm e (suffix.subset mem)]

theorem begun_append : begun (recent ++ past) = begun recent ++ begun past := by
  induction recent with
  | nil => rfl
  | cons e recent ih => rw [List.cons_append, begun, begun, ih, List.append_assoc]

theorem begunOn_append :
    begunOn handle command (recent ++ past) =
      begunOn handle command recent ++ begunOn handle command past := by
  rw [begunOn, begun_append, List.filter_append]
  rfl

theorem few_of_suffix {bound : Nat} (few : (begunOn handle command recent).length < bound)
    (suffix : past <:+ recent) : (begunOn handle command past).length < bound := by
  obtain ⟨later, rfl⟩ := suffix
  rw [begunOn_append, List.length_append] at few
  omega

/-- A slot that is not forgotten keeps its requests. -/
theorem sent_of_calm (calm : forgets handle recent = false) :
    sent handle command (recent ++ past) =
      begunOn handle command recent ++ sent handle command past := by
  induction recent with
  | nil => rfl
  | cons e recent ih =>
      rw [forgets_cons, Bool.or_eq_false_iff] at calm
      rw [List.cons_append, sent, calm.1, ih calm.2, begunOn, begunOn, begun, List.filter_append,
        List.filter_map]
      simp [Function.comp_def]

/-- A slot that is forgotten has but requests that began since. -/
theorem begun_of_sent_of_forgets (gone : forgets handle recent = true)
    {request : OperationId × RequestKey} (mem : request ∈ sent handle command (recent ++ past)) :
    request ∈ begun recent := by
  induction recent with
  | nil => cases gone
  | cons e recent ih =>
      rw [List.cons_append, sent] at mem
      rw [forgets_cons, Bool.or_eq_true] at gone
      split at mem
      · cases mem
      · rename_i steady
        rcases List.mem_append.mp mem with mem | mem
        · refine List.mem_append_left _ (List.mem_map.mpr ?_)
          obtain ⟨key, begun, rfl⟩ := List.mem_map.mp mem
          exact ⟨key, (List.mem_filter.mp begun).1, rfl⟩
        · exact List.mem_append_right _ (ih (gone.resolve_left steady) mem)

/-- A request that began in between is among those of its slot. -/
theorem mem_begunOn {id : OperationId} (mem : (id, key) ∈ begun h) :
    (id, key) ∈ begunOn key.handle key.command h :=
  List.mem_filter.mpr ⟨mem, by simp⟩

/-- An entry lies before a point of the history, or after it with some others in between. -/
theorem suffix_cases (suffix : n :: h <:+ recent ++ e :: past) :
    n ∈ e :: past ∨ ∃ later, h = later ++ e :: past ∧ n :: later <:+ recent := by
  induction recent with
  | nil => exact .inl (suffix.subset List.mem_cons_self)
  | cons c recent ih =>
      rcases List.suffix_cons_iff.mp suffix with same | suffix
      · obtain ⟨rfl, rfl⟩ := List.cons.inj same
        exact .inr ⟨recent, rfl, List.suffix_refl _⟩
      · apply (ih suffix).imp_right
        rintro ⟨later, same, within⟩
        exact ⟨later, same, within.trans (List.suffix_cons c recent)⟩

theorem suffix_of_ended {x : Ended} (mem : x ∈ ended h) : x.move :: x.past <:+ h := by
  induction h with
  | nil => cases mem
  | cons e past ih =>
      rcases List.mem_append.mp mem with mem | mem
      · obtain ⟨key, -, rfl⟩ := List.mem_map.mp mem
        exact List.suffix_refl _
      · exact (ih mem).trans (List.suffix_cons e past)

end History

/-! ### The move in which a caller's request begins -/

/-- Why a call is turned down before anything is sent: the handle is unknown, the command is not one
of the endpoint's, or the slot is busy. -/
inductive Exchange.Declines (x : Exchange) (handle : Handle) (command : Command) :
    ExchangeError → Prop where
  | unknown : x.directory.find? handle = none → Declines x handle command (.unknownHandle handle)
  | beyond {r : Registration} :
      x.directory.find? handle = some r → r.descriptor.commands ≤ command →
      Declines x handle command (.invalidCommand handle command r.descriptor.commands)
  | busy {transaction : TransactionId} :
      x.ledger.awaits ⟨handle, command, transaction⟩ = true →
      Declines x handle command (.busy handle command transaction)

/-- What a move does in which a caller's request begins: it finds the endpoint, takes the idle slot,
gives the caller its number, and offers the request. -/
structure Entry.Asks (e : Entry) (key : RequestKey) (span : Span) (r : Registration) : Prop where
  turn : ∃ payload, e.turn = .begins (.sendAndAwait key.handle key.command payload span)
  stood : e.before.directory.find? key.handle = some r
  begun : e.begun = [key]
  awaited : e.after.awaited = (e.before.awaited.enlist key).2
  offers : ∃ message, message.header.key = key ∧ e.progress =
    .waiting (.offering ⟨message, .request (some (e.before.awaited.calls, span))⟩)

/-- A call is turned down and leaves everything as it was, or its request begins. -/
theorem Session.Moved.asks {s s' : Session} {e : Entry} (moved : s.Moved s' e)
    (wf : s.exchange.ledger.WellFormed) {handle : Handle} {command : Command} {payload : Bytes}
    {span : Span} (turn : e.turn = .begins (.sendAndAwait handle command payload span)) :
    (e.after = e.before ∧ ∃ error, e.before.Declines handle command error ∧
        e.progress = .finished (.replied (.error error))) ∨
      ∃ transaction r, e.Asks ⟨handle, command, transaction⟩ span r := by
  have turned := moved.turned
  rw [← moved.before] at wf
  clear moved
  obtain ⟨operation, found, _, now, x, after, progress⟩ := e
  obtain rfl := turn
  replace turned : x.sendAndAwait handle command payload span now = (after, progress) :=
    Option.some.inj turned
  rw [Exchange.sendAndAwait, Exchange.place] at turned
  cases stood : x.directory.find? handle with
  | none =>
      rw [stood] at turned
      obtain ⟨rfl, rfl⟩ := Prod.mk.inj turned
      exact .inl ⟨rfl, _, .unknown stood, rfl⟩
  | some r =>
      simp only [stood] at turned
      split at turned
      · rename_i beyond
        obtain ⟨rfl, rfl⟩ := Prod.mk.inj turned
        exact .inl ⟨rfl, _, .beyond stood beyond, rfl⟩
      · rw [Exchange.beginRequest, Ledger.begin_eq] at turned
        cases pending : (x.ledger.slotAt handle command).outgoing.pending with
        | true =>
            simp only [pending, if_true] at turned
            obtain ⟨rfl, rfl⟩ := Prod.mk.inj turned
            exact .inl ⟨rfl, _, .busy (Ledger.awaits_of_slotAt.mpr ⟨pending, rfl⟩), rfl⟩
        | false =>
            simp only [pending, Bool.false_eq_true, if_false] at turned
            obtain ⟨rfl, rfl⟩ := Prod.mk.inj turned
            exact .inr ⟨(x.ledger.slotAt handle command).nextTransaction, r,
              { turn := ⟨payload, rfl⟩
                stood
                begun := Ledger.begun_withRequest wf pending _ _
                awaited := rfl
                offers := ⟨_, rfl, rfl⟩ }⟩

theorem Entry.Asks.begins {e : Entry} {key : RequestKey} {span : Span} {r : Registration}
    (asks : e.Asks key span r) (handle : Handle) : e.restarts handle = false := by
  obtain ⟨payload, turn⟩ := asks.turn
  rw [Entry.restarts, turn]

/-! ### After the request has begun -/

namespace Session

variable {settings : Settings} {s s' : Session} {recent past : History} {e n : Entry}
  {key : RequestKey} {span : Span} {r : Registration}

/-- What happened before an operation started was done by others, that had started before. -/
theorem Reachable.older_of_past (reached : Reachable settings s)
    (split : s.history = recent ++ e :: past) {operation : Operation}
    (turn : e.turn = .begins operation) : ∀ n ∈ past, n.operation < e.operation := by
  obtain ⟨s₀, s₁, before, -, moved, rfl⟩ := reached.moved_of_split split
  intro n mem
  cases moved.mover with
  | starts _ operation =>
      rw [operation]
      exact before.orderly.entries n mem
  | resumes _ goesOn =>
      rw [turn] at goesOn
      cases goesOn

/-- A run after a caller's request has begun in the move `e`; nothing but `recent` has happened
since. The bound on the requests of the slot is a part of it, so it goes down to every earlier
moment of the run. -/
structure Since (settings : Settings) (s : Session) (recent past : History) (e : Entry)
    (key : RequestKey) (span : Span) (r : Registration) : Prop where
  reached : Reachable settings s
  split : s.history = recent ++ e :: past
  asks : e.Asks key span r
  few : (recent.begunOn key.handle key.command).length < 256

namespace Since

variable (since : s.Since settings recent past e key span r)

include since

theorem older : ∀ n ∈ past, n.operation < e.operation := by
  obtain ⟨payload, turn⟩ := since.asks.turn
  exact since.reached.older_of_past since.split turn

/-- The session before an entry is itself one after the request has begun. -/
theorem before {later : History} (within : n :: later <:+ recent) :
    ∃ s₀ s₁ : Session, s₀.Since settings later past e key span r ∧ Reachable settings s₁ ∧
      s₀.Moved s₁ n := by
  obtain ⟨front, rfl⟩ := within
  have split := since.split
  rw [List.append_assoc, List.cons_append] at split
  obtain ⟨s₀, s₁, before, after, moved, same⟩ := since.reached.moved_of_split split
  refine ⟨s₀, s₁, ⟨before, same, since.asks, ?_⟩, after, moved⟩
  exact History.few_of_suffix since.few ((List.suffix_cons n later).trans (List.suffix_append _ _))

/-- The requests of the slot, as long as it is not forgotten. -/
theorem sent (calm : recent.forgets key.handle = false) :
    s.history.sent key.handle key.command = recent.begunOn key.handle key.command ++
      (e.operation, key) :: History.sent key.handle key.command past := by
  rw [since.split, History.sent_of_calm calm,
    History.sent_of_begun (since.asks.begins _) since.asks.begun]

/-- The number of the request does not come round. Fewer than 256 requests have begun on the slot
since, and as many would have to. -/
theorem not_begun (calm : recent.forgets key.handle = false) (id : OperationId) :
    (id, key) ∉ recent.begun := by
  intro mem
  have many := since.reached.accounted.length_of_twin (since.sent calm) (History.mem_begunOn mem)
  exact absurd since.few (Nat.not_lt.mpr many)

/-- What is pending under the key of the request is the request itself. -/
theorem of_awaits (calm : recent.forgets key.handle = false)
    (pending : s.exchange.ledger.awaits key = true) :
    s.history.Unended e.operation ∧
      ∃ earlier, s.history.sent key.handle key.command = (e.operation, key) :: earlier := by
  obtain ⟨id, earlier, sent, unended⟩ := since.reached.accounted.latest key pending
  have split := since.sent calm
  rw [sent] at split
  cases others : recent.begunOn key.handle key.command with
  | nil =>
      rw [others, List.nil_append] at split
      obtain ⟨same, -⟩ := List.cons.inj split
      obtain rfl := (Prod.mk.inj same).1
      exact ⟨unended, earlier, sent⟩
  | cons first rest =>
      rw [others] at split
      obtain ⟨rfl, -⟩ := List.cons.inj split
      have twin : (id, key) ∈ recent.begunOn key.handle key.command :=
        others ▸ List.mem_cons_self
      exact absurd (List.mem_filter.mp twin).1 (since.not_begun calm id)

/-- A request that has not ended is pending on a slot that was not forgotten. -/
theorem of_unended (unended : s.history.Unended e.operation) :
    s.exchange.ledger.awaits key = true ∧ recent.forgets key.handle = false := by
  have begun : (e.operation, key) ∈ s.history.begun := by
    rw [since.split, History.begun_append, History.begun, since.asks.begun]
    exact List.mem_append_right _ List.mem_cons_self
  obtain ⟨pending, earlier, sent⟩ := since.reached.accounted.live _ _ begun unended
  refine ⟨pending, ?_⟩
  cases gone : recent.forgets key.handle with
  | false => rfl
  | true =>
      -- No operation begins two requests, so the slot has forgotten this one.
      have mem : (e.operation, key) ∈ s.history.sent key.handle key.command :=
        sent ▸ List.mem_cons_self
      rw [since.split] at mem
      have anew := History.begun_of_sent_of_forgets gone mem
      have once := since.reached.accounted.begunOnce
      rw [since.split, History.begun_append, List.map_append, History.begun, since.asks.begun]
        at once
      exact absurd List.mem_cons_self
        (List.disjoint_of_nodup_append once (List.mem_map_of_mem anew))

theorem stands (calm : recent.forgets key.handle = false) :
    s.exchange.directory.find? key.handle = some r := by
  refine (since.reached.find?_iff since.split since.asks.stood).mpr ?_
  intro n mem
  apply Entry.dismisses_of_steady
  rcases List.mem_append.mp mem with mem | mem
  · exact History.steady_of_calm calm n mem
  · rw [List.mem_singleton.mp mem]
    exact since.asks.begins _

/-- Where an entry of an operation stands that did not start before the caller. -/
theorem within (moved : s.Moved s' n) {m : Entry} {h : History} (suffix : m :: h <:+ s'.history)
    (younger : e.operation ≤ m.operation) :
    m = e ∨ ∃ later, later <:+ recent ∧ h = later ++ e :: past ∧
      ∃ s₀ s₁ : Session, s₀.Since settings later past e key span r ∧ s₀.Moved s₁ m := by
  rw [moved.history, since.split, ← List.cons_append] at suffix
  rcases History.suffix_cases suffix with old | ⟨later, same, suffix⟩
  · rcases List.mem_cons.mp old with same | old
    · exact .inl same
    · exact absurd (since.older m old) (Nat.not_lt.mpr younger)
  · right
    rcases List.suffix_cons_iff.mp suffix with now | earlier
    · obtain ⟨rfl, rfl⟩ := List.cons.inj now
      exact ⟨later, List.suffix_refl _, same, s, s', since, moved⟩
    · obtain ⟨s₀, s₁, before, -, moved'⟩ := since.before earlier
      exact ⟨later, (List.suffix_cons m later).trans earlier, same, s₀, s₁, before, moved'⟩

end Since

/-- A response was brought to the endpoint of the caller, and it ended the caller's request. -/
structure Reports (s : Session) (e : Entry) (key : RequestKey) (r : Registration) (m : Message) :
    Prop where
  key : m.header.key = key
  type : m.header.type = .responseTo r.descriptor.role
  told : ∃ x ∈ s.history.ended, x.request = some e.operation ∧
    ∃ call ∈ s.history.calls, call.message = m ∧ call.Tells x

theorem Reports.step {m : Message} (reports : s.Reports e key r m) (moved : s.Moved s' n) :
    s'.Reports e key r m := by
  obtain ⟨x, ended, request, call, called, tells⟩ := reports.told
  refine ⟨reports.key, reports.type, x, ?_, request, call, ?_, tells⟩
  · exact (Accounted.mem_ended_step moved).mpr (.inr ended)
  · rw [moved.history]
    exact List.mem_append_right _ called

/-- A request ends but once, and only one response tells of it. -/
theorem Reports.unique {m m' : Message} (reached : Reachable settings s)
    (first : s.Reports e key r m) (second : s.Reports e key r m') : m = m' := by
  obtain ⟨x, ended, request, call, called, rfl, tells⟩ := first.told
  obtain ⟨x', ended', request', call', called', rfl, tells'⟩ := second.told
  obtain rfl : x = x' := List.inj_on_of_nodup_map reached.accounted.endedOnce ended ended'
    (request.trans request'.symm)
  have once := History.nodup_calls reached.answered.reachedOnce
  have same : call = call' := by
    apply List.inj_on_of_nodup_map once called called'
    rw [← tells.agent, ← tells.key, ← tells'.agent, ← tells'.key]
  rw [same]

/-- What an operation hands over that did not start before the caller has ended the request of the
caller, as long as the slot is not forgotten. Such an operation has found the request pending under
the key, and by then no other request could be. -/
theorem Since.reports (since : s.Since settings recent past e key span r) (moved : s.Moved s' n)
    (after : Reachable settings s') (calm : recent.forgets key.handle = false)
    (younger : e.operation ≤ n.operation) {m : Message} (mem : m ∈ n.posts)
    (same : m.header.key = key) : s'.Reports e key r m := by
  obtain ⟨r', called⟩ := moved.call_of_posts since.reached mem
  obtain ⟨x, ended, tells, -⟩ := after.told_of_latest called
  obtain ⟨payload, turn⟩ := since.asks.turn
  have agent : x.move.operation = n.operation := tells.agent
  have own : x.key = key := tells.key.trans same
  have told : x.request = some e.operation := by
    rcases since.within moved (History.suffix_of_ended ended) (agent ▸ younger)
      with here | ⟨later, suffix, pasts, s₀, s₁, before, moved'⟩
    · -- The move that begins a request ends none.
      have ending := tells.told
      rw [Ended.ending, here, turn] at ending
      rcases ending with matched | lapsed
      · cases matched
      · cases lapsed
    · obtain ⟨-, gone, sound⟩ := after.moves_of_ended x ended
      have pending := (sound.mem_ended.mp gone).1
      rw [own, moved'.before] at pending
      obtain ⟨-, earlier, sent⟩ := before.of_awaits (History.calm_of_suffix calm suffix) pending
      rw [Ended.request, Ended.sent, own, pasts, ← before.split, sent]
      rfl
  have stood : r' = r := by
    obtain ⟨m', mem', agent', reached⟩ :=
      History.mem_reached_iff.mp (History.mem_calls_iff.mp called)
    have looked := Entry.registration_of_reached (after.deeds m' mem') reached
    obtain ⟨front, h, split⟩ := List.append_of_mem mem'
    rcases since.within moved ⟨front, split.symm⟩ (agent' ▸ younger)
      with here | ⟨later, suffix, -, s₀, s₁, before, moved'⟩
    · rw [here, Entry.reached_of_silent (turn ▸ rfl)] at reached
      cases reached
    · rw [moved'.before, same, before.stands (History.calm_of_suffix calm suffix)] at looked
      exact Option.some.inj looked
  refine ⟨same, ?_, x, ended, told, _, called, rfl, tells⟩
  rw [← stood]
  exact after.type_of_call called

end Session

/-! ### Moves that hand over responses -/

/-- After several messages nobody waits under the key of one of them. -/
theorem Awaited.not_waiting_of_postAll {a : Awaited} {messages : List Message} {m : Message}
    (mem : m ∈ messages) (call : CallId) : (m.header.key, call) ∉ (a.postAll messages).waiting := by
  induction messages generalizing a with
  | nil => cases mem
  | cons first rest ih =>
      rcases List.mem_cons.mp mem with rfl | mem
      · intro waits
        have stayed : _ ∈ (a.post m).waiting := mem_waiting_of_postAll waits
        simpa using (List.mem_filter.mp stayed).2
      · exact ih mem

namespace Entry

variable {n : Entry} {m : Message}

/-- A move that forgets slots hands nothing over. -/
theorem posts_of_restarts {handle : Handle} (gone : n.restarts handle = true) : n.posts = [] := by
  unfold restarts at gone
  split at gone
  · rename_i turn
    simp [posts, turn]
  · rename_i turn _
    simp [posts, turn]
  · cases gone

/-- A move that hands over responses does nothing else to the callers. -/
theorem awaited_of_posts (turned : n.before.turn n.turn n.now = some (n.after, n.progress))
    (mem : m ∈ n.posts) : n.after.awaited = n.before.awaited.postAll n.posts := by
  have posted := mem
  unfold posts at posted
  split at posted
  · rename_i frame outcome turn progress
    obtain ⟨⟨r, _⟩, brought, rfl⟩ := List.mem_map.mp posted
    have deed := deed_of_turn turned
    obtain ⟨_, same, arrives, response⟩ := arrives_of_delivery deed brought
    obtain ⟨operation, found, _, now, before, after, _⟩ := n
    obtain rfl := turn
    obtain rfl := progress
    obtain rfl := Operation.receive.inj (Turn.begins.inj same)
    simp only at deed arrives ⊢
    cases deed with
    | idle idle =>
        rw [delivery_of_idle rfl idle] at brought
        cases brought
    | answered arrives' request =>
        obtain rfl := Except.ok.inj (arrives'.decoded.symm.trans arrives.decoded)
        rw [response] at request
        cases request
    | absorbed arrives' response' _ resident =>
        rw [posts, delivery_of_absorbed rfl rfl arrives' response' resident]
        rfl
    | mailed awaits | gaveUp awaits | overdue awaits => cases awaits
    | closed closes => cases closes
  · rename_i turn
    exact awaited_of_scans turned (turn ▸ .begins)
  · rename_i r m' reply turn
    rw [turn] at turned
    cases reply with
    | endpoint code =>
        have segment : n.before.responseServed m' code = (n.after, n.progress) :=
          Option.some.inj turned
        rw [posts, turn]
        exact (congrArg (·.1.awaited) segment).symm
    | _ => cases turned
  · rename_i turn
    exact awaited_of_scans turned (turn ▸ .goesOn)
  · cases posted

end Entry

end HubRelay
